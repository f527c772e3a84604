import Choreo.Agent.Frame

/-!
# The turns of a worker

A worker numbers its turns from the size of the snapshot it got, and only changes turns that it
started itself. What it hands back is its own session, or the snapshot it got if it panicked.
-/

namespace Choreo

open List Option

/-- The turn ids that a worker has used: those from the size of its snapshot on. -/
def Owns (base : SessionSnapshot) (s : SessionState) (k : ℕ) : Prop :=
  base.turns.size ≤ k ∧ k < s.nextTurnId

/-- A worker's session: its own turns are there and visible, all other turns are those of the
snapshot it got. -/
structure Ownership (base : SessionSnapshot) (s : SessionState) : Prop where
  size_le : base.turns.size ≤ s.nextTurnId
  outside : ∀ k, ¬Owns base s k → s.turns[k]? = base.turns[k]?
  inside : ∀ k, Owns base s k → ∃ turn, s.turns[k]? = some turn ∧ turn.undone = false
  contextWindow : s.config.contextWindow = base.config.contextWindow

/-- What the work on the turn `t` leaves alone. -/
structure TurnFrame (t : ℕ) (s s' : SessionState) : Prop where
  others : ∀ k, k ≠ t → s'.turns[k]? = s.turns[k]?
  undone : s'.turns[t]?.map Turn.undone = s.turns[t]?.map Turn.undone
  nextTurnId : s'.nextTurnId = s.nextTurnId
  contextWindow : s'.config.contextWindow = s.config.contextWindow

namespace TurnFrame

variable {t : ℕ} {s s' s'' : SessionState}

theorem trans (h : TurnFrame t s s') (h' : TurnFrame t s' s'') : TurnFrame t s s'' where
  others k hk := (h'.others k hk).trans (h.others k hk)
  undone := h'.undone.trans h.undone
  nextTurnId := h'.nextTurnId.trans h.nextTurnId
  contextWindow := h'.contextWindow.trans h.contextWindow

theorem of_eq (t : ℕ) (hturns : s'.turns = s.turns) (hnext : s'.nextTurnId = s.nextTurnId)
    (hcw : s'.config.contextWindow = s.config.contextWindow) : TurnFrame t s s' :=
  ⟨fun _ _ => by rw [hturns], by rw [hturns], hnext, hcw⟩

theorem modifyTurn (t : ℕ) (s : SessionState) (f : Turn → Turn)
    (hf : ∀ turn, (f turn).undone = turn.undone) : TurnFrame t s (s.modifyTurn t f) where
  others k hk := by rw [SessionState.get_modifyTurn, if_neg hk]
  undone := by
    rw [SessionState.get_modifyTurn, if_pos rfl, Option.map_map]
    exact congrArg (fun g => s.turns[t]?.map g) (funext hf)
  nextTurnId := rfl
  contextWindow := rfl

theorem setAssistantResponse (t : ℕ) (s : SessionState) (response : AssistantResponse) :
    TurnFrame t s (s.setAssistantResponse t response) :=
  modifyTurn t s _ fun _ => rfl

theorem of_toolFrame (h : ToolFrame t s s') : TurnFrame t s s' where
  others := h.others
  undone := by
    have hmap := congrArg (Option.map Turn.undone) h.current
    rw [Option.map_map, Option.map_map] at hmap
    exact hmap
  nextTurnId := h.nextTurnId
  contextWindow := by
    have howned := congrArg SessionConfig.contextWindow h.owned
    exact howned

theorem accumulateTokenUsage (t : ℕ) (s : SessionState) (usage : Option TokenUsage) :
    TurnFrame t s (accumulateTokenUsage s usage) := by
  cases usage <;> exact of_eq t rfl rfl rfl

end TurnFrame

namespace Ownership

variable {base : SessionSnapshot} {s s' : SessionState} {t : ℕ}

/-- The private copy that a worker starts with. -/
theorem fromSnapshot (base : SessionSnapshot) (subs : Std.ExtTreeSet ℕ) :
    Ownership base (SessionState.fromSnapshot base subs) where
  size_le := le_refl _
  outside _ _ := rfl
  inside _ hk := absurd hk.2 (not_lt.2 hk.1)
  contextWindow := rfl

theorem frame (h : Ownership base s) (ht : Owns base s t) (hframe : TurnFrame t s s') :
    Ownership base s' := by
  have howns : ∀ k, Owns base s' k ↔ Owns base s k := by
    intro k
    unfold Owns
    rw [hframe.nextTurnId]
  refine ⟨?_, ?_, ?_, ?_⟩
  · rw [hframe.nextTurnId]
    exact h.size_le
  · intro k hk
    rw [howns] at hk
    have hne : k ≠ t := fun heq => hk (heq ▸ ht)
    rw [hframe.others k hne, h.outside k hk]
  · intro k hk
    rw [howns] at hk
    obtain ⟨turn, hturn, hundone⟩ := h.inside k hk
    by_cases hkt : k = t
    · subst hkt
      have hmap := hframe.undone
      rw [hturn, map_some, map_eq_some_iff] at hmap
      obtain ⟨turn', hturn', heq⟩ := hmap
      exact ⟨turn', hturn', heq.trans hundone⟩
    · exact ⟨turn, by rw [hframe.others k hkt, hturn], hundone⟩
  · rw [hframe.contextWindow]
    exact h.contextWindow

theorem congr (h : Ownership base s) (hturns : s'.turns = s.turns)
    (hnext : s'.nextTurnId = s.nextTurnId)
    (hcw : s'.config.contextWindow = s.config.contextWindow) : Ownership base s' := by
  refine ⟨?_, ?_, ?_, ?_⟩
  · rw [hnext]
    exact h.size_le
  · unfold Owns
    rw [hturns, hnext]
    exact h.outside
  · unfold Owns
    rw [hturns, hnext]
    exact h.inside
  · rw [hcw]
    exact h.contextWindow

theorem startTurn (h : Ownership base s) (now : ℤ) (userText : Option String) :
    Ownership base (s.startTurn now userText).2 where
  size_le := Nat.le_succ_of_le h.size_le
  outside k hk := by
    have hold : ¬Owns base s k := fun hk' => hk ⟨hk'.1, Nat.lt_succ_of_lt hk'.2⟩
    have hne : k ≠ s.nextTurnId := fun heq => hk ⟨heq ▸ h.size_le, heq ▸ Nat.lt_succ_self _⟩
    rw [SessionState.get_startTurn, if_neg hne, h.outside k hold]
  inside k hk := by
    rw [SessionState.get_startTurn]
    by_cases hne : k = s.nextTurnId
    · rw [if_pos hne]
      exact ⟨_, rfl, rfl⟩
    · rw [if_neg hne]
      exact h.inside k ⟨hk.1, lt_of_le_of_ne (Nat.le_of_lt_succ hk.2) hne⟩
  contextWindow := h.contextWindow

end Ownership

def WorkerPc.currentTurn : WorkerPc → Option ℕ
  | .calling turnId => some turnId
  | .tools phase => some phase.turnId
  | .finalizing turnId _ => some turnId
  | .persisted turnId _ => some turnId
  | _ => none

def WorkerPc.handedBack : WorkerPc → Option SessionSnapshot
  | .returned _ snapshot => some snapshot
  | .concluding _ snapshot => some snapshot
  | _ => none

namespace Worker

/-- What holds of a worker at any time: it changed its own turns only, the turn it works on is the
last it started, it hands back its session or the snapshot it got, and before its outcome it only
sends updates. -/
structure Invariant (w : Worker) : Prop where
  session : Ownership w.initialSnapshot w.session
  current : ∀ k, w.pc.currentTurn = some k →
    w.initialSnapshot.turns.size ≤ k ∧ k + 1 = w.session.nextTurnId
  handedBack : ∀ snapshot, w.pc.handedBack = some snapshot →
    snapshot = w.initialSnapshot ∨ snapshot = w.session.snapshot
  outbox : ∀ c ∈ w.outbox, c.isUpdate = true ∨
    ∃ outcome snapshot, w.pc = .concluding outcome snapshot ∧ c ∈ w.outcomeCommands outcome

variable {setup : AgentSetup} {cancelPending : Bool} {label : WorkerLabel} {store : Store}
  {w w' : Worker} {effect : WorkerEffect}

theorem Invariant.owns_current (hw : w.Invariant) {k : ℕ} (hk : w.pc.currentTurn = some k) :
    Owns w.initialSnapshot w.session k := by
  obtain ⟨hle, hnext⟩ := hw.current k hk
  exact ⟨hle, by omega⟩

/-- A worker that has just been spawned. -/
theorem spawn_invariant {args : WorkerArgs} {base : SessionSnapshot} {subs : Std.ExtTreeSet ℕ}
    (h : args.session = SessionState.fromSnapshot base subs) : (spawn args).Invariant where
  session := by
    have hbase : (spawn args).initialSnapshot = base := by
      unfold spawn
      rw [h]
      rfl
    rw [hbase]
    unfold spawn
    rw [h]
    exact .fromSnapshot base subs
  current _ hk := by cases hk
  handedBack _ hs := by cases hs
  outbox _ hc := absurd hc not_mem_nil

theorem turnAppended_isUpdate (s : SessionState) (turnId : ℕ) :
    ∀ c ∈ turnAppended s turnId, c.isUpdate = true := by
  intro c hc
  unfold turnAppended at hc
  split at hc
  · rw [mem_singleton.1 hc]
    rfl
  · exact absurd hc not_mem_nil

theorem usage_turnAppended (s : SessionState) (turnId : ℕ) :
    ∀ c ∈ turnAppended s turnId, c.usage = none := by
  intro c hc
  unfold turnAppended at hc
  split at hc
  · rw [mem_singleton.1 hc]
    rfl
  · exact absurd hc not_mem_nil

theorem Invariant.goOn (hw : w.Invariant) {t : ℕ} (ht : w.pc.currentTurn = some t)
    (hbase : w'.initialSnapshot = w.initialSnapshot) (hframe : TurnFrame t w.session w'.session)
    (hpc : w'.pc.currentTurn = some t ∧ w'.pc.handedBack = none)
    (hout : ∀ c ∈ w'.outbox, c.isUpdate = true) : w'.Invariant where
  session := hbase ▸ hw.session.frame (hw.owns_current ht) hframe
  current k hk := by
    rw [hpc.1] at hk
    rw [hbase, hframe.nextTurnId]
    exact hw.current k (ht.trans hk)
  handedBack snapshot hs := by
    rw [hpc.2] at hs
    cases hs
  outbox c hc := Or.inl (hout c hc)

theorem Invariant.leaveLoop (hw : w.Invariant) (hout : w.outbox = []) (outcome : RequestOutcome)
    (cancelsRead : ℕ) :
    (Worker.leaveLoop outcome { w with cancelsRead := cancelsRead }).Invariant where
  session := hw.session
  current _ hk := by cases hk
  handedBack _ hs := Or.inr (some.inj hs).symm
  outbox c hc := by
    change c ∈ w.outbox at hc
    rw [hout] at hc
    exact absurd hc not_mem_nil

theorem Invariant.startCall (hw : w.Invariant) (now : ℤ) (cache : Option (ℕ × String))
    (estimatedPromptTokens : ℕ) : (w.startCall now cache estimatedPromptTokens).Invariant where
  session := (hw.session.startTurn now _).congr rfl rfl rfl
  current k hk := by
    cases hk
    exact ⟨hw.session.size_le, rfl⟩
  handedBack _ hs := by cases hs
  outbox c hc := by
    rcases mem_append.1 hc with hc | hc
    · exact Or.inl (turnAppended_isUpdate _ _ c hc)
    · simp only [mem_cons, not_mem_nil, or_false] at hc
      rcases hc with rfl | rfl <;> exact Or.inl rfl

theorem onFinalText_frame (turnId : ℕ) (result : FinalTextResult) (w : Worker) :
    TurnFrame turnId w.session (w.onFinalText turnId result).session :=
  ((TurnFrame.accumulateTokenUsage turnId w.session result.usage).trans
    (.setAssistantResponse turnId _ _)).trans (.of_eq turnId rfl rfl rfl)

theorem begin_frame (env : ToolEnv) (s : SessionState) (requestId turnId : ℕ)
    (calls : List ChatToolCall) :
    ToolFrame turnId s (ToolRun.begin env s requestId turnId calls).session ∧
      (ToolRun.begin env s requestId turnId calls).phase.turnId = turnId ∧
      ∀ c ∈ (ToolRun.begin env s requestId turnId calls).outbox,
        c.isUpdate = true ∧ c.usage = none := by
  unfold ToolRun.begin
  dsimp only
  set r : ToolRun := { session := _, phase := _ } with hr
  have hframe := ToolRun.Frame.broadcastTurnAppended r
  have hsession : ToolFrame turnId s r.session := .modifyTurn turnId _ _ fun _ => rfl
  refine ⟨hsession.trans hframe.session, hframe.turnId, fun c hc => ?_⟩
  exact (hframe.outbox c hc).resolve_left not_mem_nil

theorem beginTools_frame (setup : AgentSetup) (turnId : ℕ) (result : ChatAssistantToolUse)
    (w : Worker) :
    TurnFrame turnId w.session (w.beginTools setup turnId result).session ∧
      (w.beginTools setup turnId result).phase.turnId = turnId ∧
      ∀ c ∈ (w.beginTools setup turnId result).outbox, c.isUpdate = true ∧ c.usage = none := by
  obtain ⟨hframe, hturn, hsent⟩ := begin_frame setup.tools
    (w.session.setAssistantResponse turnId (w.toolUseResponse result)) w.requestId turnId
    result.toolCalls
  exact ⟨(TurnFrame.setAssistantResponse turnId w.session _).trans (.of_toolFrame hframe), hturn,
    hsent⟩

theorem move_invariant (hw : w.Invariant) (h : Move setup cancelPending store w label effect) :
    ∀ w', effect.worker = some w' → w'.Invariant := by
  intro w' hw'
  cases h with
  | flush command outbox hout =>
    cases hw'
    refine ⟨hw.session, hw.current, hw.handedBack, fun c hc => hw.outbox c ?_⟩
    rw [hout]
    exact mem_cons_of_mem _ hc
  | panic hloop =>
    cases hw'
    exact ⟨hw.session, fun _ hk => (by cases hk), fun _ hs => Or.inl (some.inj hs).symm,
      fun _ hc => absurd hc not_mem_nil⟩
  | enterLoop catalog skills hout hpc =>
    cases hw'
    refine ⟨hw.session.congr rfl rfl rfl, fun _ hk => (by cases hk), fun _ hs => (by cases hs), ?_⟩
    intro c hc
    change c ∈ w.outbox at hc
    rw [hout] at hc
    exact absurd hc not_mem_nil
  | limit now cache tokens hout hpc hlimit =>
    cases hw'
    exact hw.leaveLoop hout _ w.cancelsRead
  | cancelAtTop now cache tokens hout hpc hcancel =>
    cases hw'
    exact hw.leaveLoop hout _ _
  | startCall now cache tokens hout hpc hcancel =>
    cases hw'
    exact hw.startCall now cache tokens
  | finalText turnId result hout hpc =>
    cases hw'
    refine hw.goOn (t := turnId) (by rw [hpc]; rfl) rfl (onFinalText_frame turnId result w)
      ⟨rfl, rfl⟩ fun c hc => ?_
    rw [mem_singleton.1 hc]
    rfl
  | toolUse turnId result hout hpc =>
    cases hw'
    obtain ⟨hframe, hturn, hsent⟩ :=
      beginTools_frame setup turnId result (w.recordUsage result.usage)
    have husage := TurnFrame.accumulateTokenUsage turnId w.session result.usage
    refine hw.goOn (t := turnId) (by rw [hpc]; rfl) rfl
      ((husage.trans hframe).trans (.of_eq turnId rfl rfl rfl))
      ⟨congrArg some hturn, rfl⟩ fun c hc => ?_
    rcases mem_append.1 hc with hc | hc
    · rw [mem_singleton.1 hc]
      rfl
    · exact (hsent c hc).1
  | callCancelled turnId hout hpc hcancel =>
    cases hw'
    exact hw.leaveLoop hout _ _
  | truncated turnId error hout hpc | callFailed turnId error hout hpc =>
    cases hw'
    refine hw.goOn (t := turnId) (by rw [hpc]; rfl) rfl (.modifyTurn turnId _ _ fun _ => rfl)
      ⟨rfl, rfl⟩ fun c hc => ?_
    change c ∈ w.outbox at hc
    rw [hout] at hc
    exact absurd hc not_mem_nil
  | tool label phase r consumed hout hpc hstep =>
    cases hw'
    have hframe := ToolRun.step_frame hstep
    refine hw.goOn (t := phase.turnId) (by rw [hpc]; rfl) rfl (.of_toolFrame hframe.session)
      ⟨congrArg some hframe.turnId, rfl⟩ fun c hc => ?_
    exact ((hframe.outbox c hc).resolve_left not_mem_nil).1
  | toolsCancelled phase hout hpc hstage hcancelled =>
    cases hw'
    exact hw.leaveLoop hout _ w.cancelsRead
  | nextIteration phase hout hpc hstage hcancelled =>
    cases hw'
    refine ⟨hw.session, fun _ hk => (by cases hk), fun _ hs => (by cases hs), fun c hc => ?_⟩
    change c ∈ w.outbox at hc
    rw [hout] at hc
    exact absurd hc not_mem_nil
  | write turnId outcome turn hout hpc hturn =>
    cases hw'
    exact hw.goOn (t := turnId) (by rw [hpc]; rfl) rfl (.of_eq turnId rfl rfl rfl) ⟨rfl, rfl⟩
      (turnAppended_isUpdate w.session turnId)
  | writeFailed writeError turnId outcome outcome' hout hpc hwrite houtcome =>
    cases hw'
    exact hw.leaveLoop hout _ w.cancelsRead
  | leaveLoop turnId outcome hout hpc =>
    cases hw'
    exact hw.leaveLoop hout _ w.cancelsRead
  | conclude outcome snapshot hout hpc =>
    cases hw'
    refine ⟨hw.session, fun _ hk => (by cases hk), fun s hs => ?_, fun c hc => ?_⟩
    · refine hw.handedBack s ?_
      rw [hpc]
      exact hs
    · exact Or.inr ⟨outcome, snapshot, rfl, hc⟩
  | finish outcome snapshot hout hpc => cases hw'

theorem step_invariant (hw : w.Invariant)
    (h : w.step setup cancelPending label store = some effect) (hw' : effect.worker = some w') :
    w'.Invariant :=
  move_invariant hw (step_move h) w' hw'

/-- A step of a worker either goes on, sending at most the next command of its outbox, or ends the
worker with its snapshot. -/
theorem step_shape (h : w.step setup cancelPending label store = some effect) :
    (∃ w', effect.worker = some w' ∧ w'.requestId = w.requestId ∧
      w'.initialSnapshot = w.initialSnapshot ∧ effect.output = none ∧
      ∀ c, effect.command = some c → label = .flush ∧ c ∈ w.outbox) ∨
    ∃ outcome snapshot, w.pc = .concluding outcome snapshot ∧
      effect = { worker := none
                 store := store
                 command := some (.requestFinished w.requestId snapshot)
                 output := w.childReply.map fun reply =>
                  .child reply (.ok (w.childResult outcome)) } := by
  cases step_move h with
  | flush command outbox hout =>
    refine Or.inl ⟨_, rfl, rfl, rfl, rfl, fun c hc => ⟨rfl, ?_⟩⟩
    rw [hout, ← some.inj hc]
    exact mem_cons_self
  | finish outcome snapshot hout hpc => exact Or.inr ⟨outcome, snapshot, hpc, rfl⟩
  | _ => exact Or.inl ⟨_, rfl, rfl, rfl, rfl, fun c hc => by cases hc⟩

/-- A worker that is over has nothing left to send. -/
theorem step_over (h : w.step setup cancelPending label store = some effect)
    (hw' : effect.worker = none) : label = .finish ∧ w.outbox = [] := by
  cases step_move h with
  | finish outcome snapshot hout hpc => exact ⟨rfl, hout⟩
  | _ => cases hw'

theorem step_store (h : w.step setup cancelPending label store = some effect) :
    effect.store = store ∨
      ∃ turnId outcome turn, label = .finalize none ∧ w.pc = .finalizing turnId outcome ∧
        w.session.turns[turnId]? = some turn ∧ effect.store = store.writeTurn turnId turn := by
  cases step_move h with
  | write turnId outcome turn hout hpc hturn =>
    exact Or.inr ⟨turnId, outcome, turn, rfl, hpc, hturn, rfl⟩
  | _ => exact Or.inl rfl

theorem step_nextTurnId
    (h : w.step setup cancelPending label store = some effect) (hw' : effect.worker = some w') :
    w'.session.nextTurnId = w.session.nextTurnId ∨
      (∃ now cache tokens, label = .startCall now cache tokens) ∧ w.pc = .top ∧
        w'.session.nextTurnId = w.session.nextTurnId + 1 := by
  cases step_move h with
  | startCall now cache tokens hout hpc hcancel =>
    cases hw'
    exact Or.inr ⟨⟨now, cache, tokens, rfl⟩, hpc, rfl⟩
  | finalText turnId result hout hpc =>
    cases hw'
    exact Or.inl (onFinalText_frame turnId result w).nextTurnId
  | toolUse turnId result hout hpc =>
    cases hw'
    have hframe := (beginTools_frame setup turnId result (w.recordUsage result.usage)).1
    have husage := TurnFrame.accumulateTokenUsage turnId w.session result.usage
    exact Or.inl (husage.trans hframe).nextTurnId
  | tool label phase r consumed hout hpc hstep =>
    cases hw'
    exact Or.inl (ToolRun.step_frame hstep).session.nextTurnId
  | finish outcome snapshot hout hpc => cases hw'
  | _ =>
    cases hw'
    exact Or.inl rfl

end Worker

end Choreo
