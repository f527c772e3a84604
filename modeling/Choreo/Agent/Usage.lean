import Choreo.Session.Totals

/-!
# The token totals of a worker

A worker starts with the totals of the session and adds the usage of every model call, which it also
records on the turn of the call. Its totals stay the sum over its turns, and what it sends is in
order, as long as the counters do not wrap around, its turns get fresh ids, and it does not panic
after it counted something: then it hands back a snapshot that is older than the totals it sent.
-/

namespace Choreo

open List Option

/-! ### Totals on their way -/

namespace SessionCommand

/-- The totals of the session after a command: a sync takes larger ones over. -/
def after (total : TokenUsage) : SessionCommand → TokenUsage
  | .syncAccumulatedUsage u _ => u
  | _ => total

/-- The totals that a command carries are not behind those of the session, and only a sync is
ahead of them. -/
def Carries (total : TokenUsage) : SessionCommand → Prop
  | .syncAccumulatedUsage u _ => total ≤ u
  | command => ∀ u ∈ command.usage, u = total

theorem carries_of_usage {command : SessionCommand} (h : command.usage = none)
    (total : TokenUsage) : command.Carries total ∧ command.after total = total := by
  cases command with
  | syncAccumulatedUsage u p | requestFinished requestId snapshot => cases h
  | broadcast event =>
    refine ⟨fun u hu => ?_, rfl⟩
    cases h.symm.trans hu
  | _ => exact ⟨fun u hu => (by cases hu), rfl⟩

theorem le_after {command : SessionCommand} {total : TokenUsage} (h : command.Carries total) :
    total ≤ command.after total := by
  cases command with
  | syncAccumulatedUsage u p => exact h
  | _ => exact le_refl _

end SessionCommand

/-- The commands carry totals in order, from those of the session to the last ones. -/
def Flow (total : TokenUsage) : List SessionCommand → TokenUsage → Prop
  | [], last => total = last
  | command :: commands, last =>
    command.Carries total ∧ Flow (command.after total) commands last

namespace Flow

variable {total last : TokenUsage} {commands commands' : List SessionCommand}

theorem append :
    Flow total (commands ++ commands') last ↔
      ∃ middle, Flow total commands middle ∧ Flow middle commands' last := by
  induction commands generalizing total with
  | nil => exact ⟨fun h => ⟨total, rfl, h⟩, by rintro ⟨middle, rfl, h⟩; exact h⟩
  | cons command commands ih =>
    rw [cons_append, Flow, ih]
    constructor
    · rintro ⟨hcarries, middle, hfirst, hrest⟩
      exact ⟨middle, ⟨hcarries, hfirst⟩, hrest⟩
    · rintro ⟨middle, ⟨hcarries, hfirst⟩, hrest⟩
      exact ⟨hcarries, middle, hfirst, hrest⟩

theorem le (h : Flow total commands last) : total ≤ last := by
  induction commands generalizing total with
  | nil => exact le_of_eq h
  | cons command commands ih => exact (SessionCommand.le_after h.1).trans (ih h.2)

/-- Commands that carry nothing. -/
theorem of_usage (h : ∀ c ∈ commands, c.usage = none) : Flow total commands total := by
  induction commands with
  | nil => rfl
  | cons command commands ih =>
    obtain ⟨hcarries, hafter⟩ :=
      SessionCommand.carries_of_usage (h command mem_cons_self) total
    refine ⟨hcarries, ?_⟩
    rw [hafter]
    exact ih fun c hc => h c (mem_cons_of_mem _ hc)

end Flow

/-! ### The tokens of a worker's session -/

/-- A change that keeps the totals and the tokens of all turns. -/
structure SameTokens (s s' : SessionState) : Prop where
  usage : s'.config.accumulatedUsage = s.config.accumulatedUsage
  tokens : ∀ k c, tokensAt s'.turns k c = tokensAt s.turns k c

namespace SameTokens

variable {s s' s'' : SessionState}

theorem trans (h : SameTokens s s') (h' : SameTokens s' s'') : SameTokens s s'' :=
  ⟨h'.usage.trans h.usage, fun k c => (h'.tokens k c).trans (h.tokens k c)⟩

theorem of_eq (husage : s'.config.accumulatedUsage = s.config.accumulatedUsage)
    (hturns : s'.turns = s.turns) : SameTokens s s' :=
  ⟨husage, fun k c => by rw [hturns]⟩

theorem refl (s : SessionState) : SameTokens s s := of_eq rfl rfl

theorem of_toolFrame {t : ℕ} (h : ToolFrame t s s') : SameTokens s s' where
  usage := by
    have howned := congrArg SessionConfig.accumulatedUsage h.owned
    exact howned
  tokens k c := by
    by_cases hk : k = t
    · have htokens := congrArg (fun turn => turn.elim 0 (Turn.tokens c)) h.current
      simp only [elim_map] at htokens
      rw [hk]
      exact htokens
    · rw [tokensAt, tokensAt, Std.ExtTreeMap.weightAt, Std.ExtTreeMap.weightAt, h.others k hk]

end SameTokens

theorem tokensAt_modifyTurn (s : SessionState) (t : ℕ) (f : Turn → Turn) (k : ℕ) (c : Counter) :
    tokensAt (s.modifyTurn t f).turns k c =
      if k = t then s.turns[k]?.elim 0 fun turn => (f turn).tokens c else tokensAt s.turns k c := by
  rw [tokensAt, tokensAt, Std.ExtTreeMap.weightAt, Std.ExtTreeMap.weightAt,
    SessionState.get_modifyTurn]
  split_ifs
  · rw [elim_map]
    rfl
  · rfl

/-- A call whose usage is added and recorded on its turn, which has no tokens yet: the totals stay
the sum over the turns. -/
theorem sumOf_recordUsage {s : SessionState} (hsum : s.config.accumulatedUsage.SumOf s.turns)
    {t : ℕ} {turn : Turn} (hturn : s.turns[t]? = some turn) (hzero : ∀ c, tokensAt s.turns t c = 0)
    (response : AssistantResponse)
    (hfits : ∀ u ∈ response.tokenUsage, s.config.accumulatedUsage.Fits u) :
    let s' := (accumulateTokenUsage s response.tokenUsage).setAssistantResponse t response
    s'.config.accumulatedUsage.SumOf s'.turns ∧
      s.config.accumulatedUsage ≤ s'.config.accumulatedUsage ∧
      ∀ k c, k ≠ t → tokensAt s'.turns k c = tokensAt s.turns k c := by
  obtain ⟨usage, husage⟩ : ∃ usage, response.tokenUsage = usage := ⟨_, rfl⟩
  rw [husage] at hfits ⊢
  have hturns : (accumulateTokenUsage s usage).turns = s.turns := by cases usage <;> rfl
  have hothers : ∀ k c, k ≠ t →
      tokensAt ((accumulateTokenUsage s usage).setAssistantResponse t response).turns k c =
        tokensAt s.turns k c := by
    intro k c hk
    rw [SessionState.setAssistantResponse, tokensAt_modifyTurn, if_neg hk, hturns]
  have hkey : ∀ c,
      tokensAt ((accumulateTokenUsage s usage).setAssistantResponse t response).turns t c =
        tokensAt s.turns t c + usage.elim 0 fun u => u.tokens c := by
    intro c
    rw [SessionState.setAssistantResponse, tokensAt_modifyTurn, if_pos rfl, hturns, hturn, hzero,
      Nat.zero_add, elim_some, ← husage]
    rfl
  have hweight : ∀ c,
      ((accumulateTokenUsage s usage).setAssistantResponse t response).turns.weight
          (Turn.tokens c) =
        s.turns.weight (Turn.tokens c) + usage.elim 0 fun u => u.tokens c :=
    fun c => Std.ExtTreeMap.weight_add (fun k hk => hothers k c hk) (hkey c)
  refine ⟨fun c => ?_, ?_, hothers⟩
  · rw [hweight, ← hsum c]
    cases usage with
    | none => rfl
    | some u => exact TokenUsage.tokens_add_of_fits (hfits u rfl) c
  · cases usage with
    | none => exact le_refl _
    | some u => exact TokenUsage.le_add_of_fits (hfits u rfl)

/-! ### The steps of a worker -/

/-- The usage that a model reports. -/
def ModelReply.usage : ModelReply → Option TokenUsage
  | .finalText result => result.usage
  | .toolUse result => result.usage
  | _ => none

namespace Worker

/-- The condition on a step of a worker: the counters do not wrap around, a turn gets an id that no
turn of the worker's snapshot has, and a worker only panics while it has counted nothing. -/
def CountsSafely (label : WorkerLabel) (w : Worker) : Prop :=
  match label with
  | .reply reply => ∀ u ∈ reply.usage, w.session.config.accumulatedUsage.Fits u
  | .startCall .. => w.initialSnapshot.turns[w.session.nextTurnId]? = none
  | .panic =>
    w.session.config.accumulatedUsage = w.initialSnapshot.config.accumulatedUsage
  | _ => True

instance (label : WorkerLabel) (w : Worker) : Decidable (CountsSafely label w) :=
  match label with
  | .reply reply =>
    inferInstanceAs (Decidable (∀ u ∈ reply.usage, w.session.config.accumulatedUsage.Fits u))
  | .startCall .. =>
    inferInstanceAs (Decidable (w.initialSnapshot.turns[w.session.nextTurnId]? = none))
  | .panic =>
    inferInstanceAs (Decidable (w.session.config.accumulatedUsage =
      w.initialSnapshot.config.accumulatedUsage))
  | .flush | .enterLoop .. | .tool _ | .leaveTools | .finalize _ | .leaveLoop | .conclude
  | .finish => isTrue trivial

/-- The totals of a worker are the sum over its turns; those it started with were the sum over the
turns it was given, none of which lost tokens; what it hands back has the same totals and tokens as
its session; and the turn of a call that is not answered yet is new and has no tokens. -/
structure Counted (w : Worker) : Prop where
  sum : w.session.config.accumulatedUsage.SumOf w.session.turns
  base : w.initialSnapshot.config.accumulatedUsage.SumOf w.initialSnapshot.turns
  grown : ∀ k c, tokensAt w.initialSnapshot.turns k c ≤ tokensAt w.session.turns k c
  handedBack : ∀ snapshot, w.pc.handedBack = some snapshot →
    snapshot.config.accumulatedUsage = w.session.config.accumulatedUsage ∧
      ∀ k c, tokensAt snapshot.turns k c = tokensAt w.session.turns k c
  calling : ∀ t, w.pc = .calling t →
    w.initialSnapshot.turns[t]? = none ∧ ∀ c, tokensAt w.session.turns t c = 0

/-- What a step of a worker does to the totals: they stay right, the commands carry them in order,
and only the turn of a call that is answered gets tokens. -/
structure Counts (w w' : Worker) (sent : List SessionCommand) : Prop where
  counted : w'.Counted
  base : w'.initialSnapshot = w.initialSnapshot
  flow : ∀ total, w.initialSnapshot.config.accumulatedUsage ≤ total →
    Flow total w.outbox w.session.config.accumulatedUsage →
    Flow total (sent ++ w'.outbox) w'.session.config.accumulatedUsage
  tokens : ∀ k c, tokensAt w'.session.turns k c = tokensAt w.session.turns k c ∨ w.pc = .calling k

variable {setup : AgentSetup} {cancelPending : Bool} {label : WorkerLabel} {store : Store}
  {w w' : Worker} {effect : WorkerEffect}

/-- A step that keeps the tokens. -/
theorem Counted.counts (h : w.Counted) (w' : Worker) (hsame : SameTokens w.session w'.session)
    (hbase : w'.initialSnapshot = w.initialSnapshot)
    (hhanded : ∀ snapshot, w'.pc.handedBack = some snapshot →
      w.pc.handedBack = some snapshot ∨ snapshot = w'.session.snapshot)
    (hcalling : ∀ t, w'.pc = .calling t → w.pc = .calling t) {sent : List SessionCommand}
    (hflow : ∀ total, Flow total w.outbox w.session.config.accumulatedUsage →
      Flow total (sent ++ w'.outbox) w.session.config.accumulatedUsage) : Counts w w' sent where
  counted :=
    { sum := hsame.usage ▸ h.sum.congr hsame.tokens
      base := hbase ▸ h.base
      grown := fun k c => by
        rw [hbase, hsame.tokens]
        exact h.grown k c
      handedBack := fun snapshot hsnap => by
        rcases hhanded snapshot hsnap with hold | rfl
        · obtain ⟨husage, htokens⟩ := h.handedBack snapshot hold
          exact ⟨husage.trans hsame.usage.symm, fun k c => by rw [htokens, hsame.tokens]⟩
        · exact ⟨rfl, fun _ _ => rfl⟩
      calling := fun t ht => by
        obtain ⟨hfree, hzero⟩ := h.calling t (hcalling t ht)
        exact ⟨by rw [hbase, hfree], fun c => by rw [hsame.tokens, hzero]⟩ }
  base := hbase
  flow total _ hold := by
    rw [hsame.usage]
    exact hflow total hold
  tokens k c := Or.inl (hsame.tokens k c)

theorem Counted.counts_of_usage (h : w.Counted) (hsame : SameTokens w.session w'.session)
    (hbase : w'.initialSnapshot = w.initialSnapshot)
    (hhanded : ∀ snapshot, w'.pc.handedBack = some snapshot →
      w.pc.handedBack = some snapshot ∨ snapshot = w'.session.snapshot)
    (hcalling : ∀ t, w'.pc = .calling t → w.pc = .calling t) (hout : w.outbox = [])
    (hsent : ∀ c ∈ w'.outbox, c.usage = none) : Counts w w' [] := by
  refine h.counts w' hsame hbase hhanded hcalling fun total hold => ?_
  rw [hout] at hold
  cases hold
  exact Flow.of_usage hsent

theorem Counted.leaveLoop (h : w.Counted) (hout : w.outbox = []) (outcome : RequestOutcome)
    (cancelsRead : ℕ) :
    Counts w (Worker.leaveLoop outcome { w with cancelsRead := cancelsRead }) [] := by
  refine h.counts_of_usage (.refl _) rfl (fun snapshot hsnap => Or.inr ?_) (fun t ht => ?_) hout
    fun c hc => ?_
  · exact (some.inj hsnap).symm
  · cases ht
  · change c ∈ w.outbox at hc
    rw [hout] at hc
    exact absurd hc not_mem_nil

/-- The start of a call under a fresh id. -/
theorem Counted.startCall (hw : w.Invariant) (h : w.Counted) (hout : w.outbox = [])
    (hfree : w.initialSnapshot.turns[w.session.nextTurnId]? = none) (now : ℤ)
    (cache : Option (ℕ × String)) (estimatedPromptTokens : ℕ) :
    Counts w (w.startCall now cache estimatedPromptTokens) [] := by
  have hnone : w.session.turns[w.session.nextTurnId]? = none := by
    rw [hw.session.outside _ fun howns => absurd howns.2 (lt_irrefl _), hfree]
  have hget : ∀ k, (w.startCall now cache estimatedPromptTokens).session.turns[k]? =
      if k = w.session.nextTurnId then
        some { createdAt := now, userText := if w.turnIter = 0 then w.userText else none }
      else w.session.turns[k]? :=
    fun k => SessionState.get_startTurn w.session now _ k
  have hnew : ∀ c, tokensAt (w.startCall now cache estimatedPromptTokens).session.turns
      w.session.nextTurnId c = 0 := by
    intro c
    rw [tokensAt_of_get ((hget _).trans (if_pos rfl))]
    rfl
  have hsame : SameTokens w.session (w.startCall now cache estimatedPromptTokens).session := by
    refine ⟨rfl, fun k c => ?_⟩
    by_cases hk : k = w.session.nextTurnId
    · rw [hk, hnew, tokensAt_of_none hnone]
    · rw [tokensAt, tokensAt, Std.ExtTreeMap.weightAt, Std.ExtTreeMap.weightAt, hget, if_neg hk]
  have hzero : ∀ total, Flow total w.outbox w.session.config.accumulatedUsage →
      Flow total ([] ++ (w.startCall now cache estimatedPromptTokens).outbox)
        w.session.config.accumulatedUsage := by
    intro total hold
    rw [hout] at hold
    cases hold
    refine Flow.of_usage fun c hc => ?_
    rw [nil_append] at hc
    rcases mem_append.1 hc with hc | hc
    · exact usage_turnAppended _ _ c hc
    · rcases mem_pair.1 hc with rfl | rfl <;> rfl
  have hsum : (w.startCall now cache estimatedPromptTokens).session.config.accumulatedUsage.SumOf
      (w.startCall now cache estimatedPromptTokens).session.turns := h.sum.congr hsame.tokens
  refine ⟨⟨hsum, h.base, fun k c => ?_, fun snapshot hsnap => ?_, fun t ht => ?_⟩, rfl,
    fun total _ => hzero total, fun k c => Or.inl (hsame.tokens k c)⟩
  · rw [hsame.tokens]
    exact h.grown k c
  · cases hsnap
  · cases ht
    exact ⟨hfree, hnew⟩

theorem Counted.answer (hw : w.Invariant) (h : w.Counted) (hout : w.outbox = []) {t : ℕ}
    (hpc : w.pc = .calling t) (response : AssistantResponse)
    (hfits : ∀ u ∈ response.tokenUsage, w.session.config.accumulatedUsage.Fits u)
    (hbase : w'.initialSnapshot = w.initialSnapshot)
    (hsame : SameTokens
      ((accumulateTokenUsage w.session response.tokenUsage).setAssistantResponse t response)
      w'.session)
    (hhanded : w'.pc.handedBack = none) (hcalling : ∀ t, w'.pc ≠ .calling t)
    {lastPromptTokens : Option UInt32} {sent : List SessionCommand}
    (hsent : ∀ c ∈ sent, c.usage = none)
    (houtbox : w'.outbox = .syncAccumulatedUsage
      (accumulateTokenUsage w.session response.tokenUsage).config.accumulatedUsage
      lastPromptTokens :: sent) :
    Counts w w' [] := by
  obtain ⟨turn, hturn, -⟩ := hw.session.inside t (hw.owns_current (by rw [hpc]; rfl))
  obtain ⟨hfree, hzero⟩ := h.calling t hpc
  obtain ⟨hsum, hle, hothers⟩ :=
    sumOf_recordUsage h.sum hturn hzero response hfits
  refine ⟨⟨?_, hbase ▸ h.base, fun k c => ?_, fun snapshot hsnap => ?_, fun t' ht' => ?_⟩, hbase,
    fun total _ hold => ?_, fun k c => ?_⟩
  · exact hsame.usage ▸ hsum.congr hsame.tokens
  · rw [hbase, hsame.tokens]
    by_cases hk : k = t
    · rw [hk, tokensAt_of_none hfree]
      exact Nat.zero_le _
    · rw [hothers k c hk]
      exact h.grown k c
  · rw [hhanded] at hsnap
    cases hsnap
  · exact absurd ht' (hcalling t')
  · rw [hout] at hold
    cases hold
    rw [nil_append, houtbox, hsame.usage]
    exact ⟨hle, Flow.of_usage hsent⟩
  · by_cases hk : k = t
    · exact Or.inr (hk ▸ hpc)
    · exact Or.inl ((hsame.tokens k c).trans (hothers k c hk))

/-- A panic before anything was counted. -/
theorem Counted.panic (h : w.Counted)
    (hnothing : w.session.config.accumulatedUsage = w.initialSnapshot.config.accumulatedUsage)
    (error : String) :
    Counts w { w with pc := .returned (.failed error) w.initialSnapshot, outbox := [] } [] where
  counted :=
    { sum := h.sum
      base := h.base
      grown := h.grown
      handedBack := fun snapshot hsnap => by
        cases hsnap
        refine ⟨hnothing.symm, fun k c => ?_⟩
        refine Std.ExtTreeMap.weightAt_eq_of_weight_le (fun k => h.grown k c) ?_ k
        rw [← h.sum c, ← h.base c, hnothing]
      calling := fun t ht => by cases ht }
  base := rfl
  flow total hbase hold := le_antisymm hold.le (hnothing.le.trans hbase)
  tokens _ _ := Or.inl rfl

/-- Every step of a worker that meets the condition keeps its totals right. -/
theorem move_counted (hw : w.Invariant) (h : w.Counted) (hsafe : CountsSafely label w)
    (hmove : Move setup cancelPending store w label effect) (hw' : effect.worker = some w') :
    Counts w w' effect.command.toList := by
  have hnil : ∀ {w' : Worker}, w.outbox = [] → w'.outbox = w.outbox →
      ∀ c ∈ w'.outbox, c.usage = none := by
    intro w' hout heq c hc
    rw [heq, hout] at hc
    exact absurd hc not_mem_nil
  cases hmove with
  | flush command outbox hout =>
    cases hw'
    refine h.counts { w with outbox := outbox } (.refl _) rfl (fun _ => Or.inl) (fun _ => id)
      fun total hold => ?_
    rw [hout] at hold
    exact hold
  | panic hloop =>
    cases hw'
    exact h.panic hsafe _
  | enterLoop catalog skills hout hpc =>
    cases hw'
    exact h.counts_of_usage (.of_eq rfl rfl) rfl (fun _ hsnap => (by cases hsnap))
      (fun _ ht => (by cases ht)) hout (hnil hout rfl)
  | limit now cache tokens hout hpc hlimit =>
    cases hw'
    exact h.leaveLoop hout _ w.cancelsRead
  | cancelAtTop now cache tokens hout hpc hcancel =>
    cases hw'
    exact h.leaveLoop hout _ _
  | startCall now cache tokens hout hpc hcancel =>
    cases hw'
    exact Counted.startCall hw h hout hsafe now cache tokens
  | finalText turnId result hout hpc =>
    cases hw'
    exact Counted.answer hw h hout hpc ((w.recordUsage result.usage).finalTextResponse result)
      hsafe rfl (.of_eq rfl rfl) rfl (fun _ ht => (by cases ht))
      (fun c hc => absurd hc not_mem_nil) rfl
  | toolUse turnId result hout hpc =>
    cases hw'
    obtain ⟨hframe, -, hsent⟩ := begin_frame setup.tools
      ((w.recordUsage result.usage).session.setAssistantResponse turnId
        ((w.recordUsage result.usage).toolUseResponse result)) w.requestId turnId result.toolCalls
    exact Counted.answer hw h hout hpc ((w.recordUsage result.usage).toolUseResponse result)
      hsafe rfl ((SameTokens.of_toolFrame hframe).trans (.of_eq rfl rfl)) rfl
      (fun _ ht => (by cases ht)) (fun c hc => (hsent c hc).2) rfl
  | callCancelled turnId hout hpc hcancel =>
    cases hw'
    exact h.leaveLoop hout _ _
  | truncated turnId error hout hpc =>
    cases hw'
    refine h.counts_of_usage ⟨rfl, fun k c => ?_⟩ rfl (fun _ hsnap => (by cases hsnap))
      (fun _ ht => (by cases ht)) hout (hnil hout rfl)
    rw [SessionState.setAssistantResponse, tokensAt_modifyTurn]
    split_ifs with hk
    · rw [hk, (h.calling turnId hpc).2 c]
      cases w.session.turns[turnId]? <;> rfl
    · rfl
  | callFailed turnId error hout hpc =>
    cases hw'
    refine h.counts_of_usage ⟨rfl, fun k c => ?_⟩ rfl (fun _ hsnap => (by cases hsnap))
      (fun _ ht => (by cases ht)) hout (hnil hout rfl)
    rw [SessionState.setTurnError, tokensAt_modifyTurn]
    split_ifs <;> rfl
  | tool label phase r consumed hout hpc hstep =>
    cases hw'
    have hframe := ToolRun.step_frame hstep
    refine h.counts_of_usage (.of_toolFrame hframe.session) rfl (fun _ hsnap => (by cases hsnap))
      (fun _ ht => (by cases ht)) hout fun c hc => ?_
    exact ((hframe.outbox c hc).resolve_left not_mem_nil).2
  | toolsCancelled phase hout hpc hstage hcancelled =>
    cases hw'
    exact h.leaveLoop hout _ w.cancelsRead
  | nextIteration phase hout hpc hstage hcancelled =>
    cases hw'
    exact h.counts_of_usage (.refl _) rfl (fun _ hsnap => (by cases hsnap))
      (fun _ ht => (by cases ht)) hout (hnil hout rfl)
  | write turnId outcome turn hout hpc hturn =>
    cases hw'
    exact h.counts_of_usage (.refl _) rfl (fun _ hsnap => (by cases hsnap))
      (fun _ ht => (by cases ht)) hout (usage_turnAppended w.session turnId)
  | writeFailed writeError turnId outcome outcome' hout hpc hwrite houtcome =>
    cases hw'
    exact h.leaveLoop hout _ w.cancelsRead
  | leaveLoop turnId outcome hout hpc =>
    cases hw'
    exact h.leaveLoop hout _ w.cancelsRead
  | conclude outcome snapshot hout hpc =>
    cases hw'
    refine h.counts
      { w with pc := .concluding outcome snapshot, outbox := w.outcomeCommands outcome } (.refl _) rfl
      (fun snap hsnap => Or.inl ?_) (fun _ ht => (by cases ht)) fun total hold => ?_
    · rw [hpc]
      exact hsnap
    · rw [hout] at hold
      cases hold
      cases outcome with
      | done => exact ⟨fun u hu => (some.inj hu).symm, rfl⟩
      | failed error => exact Flow.of_usage fun c hc => by rw [mem_singleton.1 hc]; rfl
      | cancelled => rfl
  | finish outcome snapshot hout hpc => cases hw'

theorem step_counted (hw : w.Invariant) (h : w.Counted) (hsafe : CountsSafely label w)
    (hstep : w.step setup cancelPending label store = some effect)
    (hw' : effect.worker = some w') : Counts w w' effect.command.toList :=
  move_counted hw h hsafe (step_move hstep) hw'

/-- A worker that has just been spawned, on a session whose totals are right. -/
theorem spawn_counted {args : WorkerArgs} {state : SessionState}
    (hsession : args.session = SessionState.fromSnapshot state.snapshot ∅)
    (hsum : state.config.accumulatedUsage.SumOf state.turns) : (spawn args).Counted := by
  have hstart : (spawn args).session = SessionState.fromSnapshot state.snapshot ∅ := hsession
  have hbase : (spawn args).initialSnapshot = state.snapshot := by
    unfold spawn
    rw [hsession]
    rfl
  refine ⟨?_, ?_, fun k c => ?_, fun snapshot hsnap => ?_, fun t ht => ?_⟩
  · rw [hstart]
    exact hsum
  · rw [hbase]
    exact hsum
  · rw [hbase, hstart]
    exact le_refl _
  · cases hsnap
  · have hstarted : WorkerPc.start = .calling t := ht
    cases hstarted

end Worker

end Choreo
