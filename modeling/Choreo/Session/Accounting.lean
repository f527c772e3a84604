import Choreo.Agent.Usage

/-!
# The token accounts of a session

A session keeps its token totals in three places: in the state of its thread, in the private state of
the worker, and, turn by turn, in the store. The worker counts, the thread follows with every sync,
and the end of a request writes the turns. Over a whole run the three agree whenever nothing is in
flight, and clients never see the totals go down, as long as the counters do not wrap around, no
counted turn is lost, and no worker panics after it counted something.
-/

namespace Choreo

open List Option

/-- The newer output carries no smaller totals than the older one. -/
def Output.NotLess (newer older : Output) : Prop :=
  ∀ u ∈ newer.usage, ∀ v ∈ older.usage, v ≤ u

/-- The snapshot that a command hands back. -/
def SessionCommand.snapshot : SessionCommand → Option SessionSnapshot
  | .requestFinished _ snapshot => some snapshot
  | _ => none

theorem SessionCommand.snapshot_of_finishedId {command : SessionCommand}
    (h : command.finishedId = none) : command.snapshot = none := by
  cases command with
  | requestFinished requestId snapshot => cases h
  | _ => rfl

theorem SessionCommand.usage_of_isExternal {command : SessionCommand}
    (h : command.isExternal = true) : command.usage = none := by
  cases command with
  | requestFinished requestId snapshot | syncAccumulatedUsage u p => cases h
  | broadcast event => cases event <;> first | rfl | cases h
  | _ => rfl

/-! ### The totals that a session thread reports -/

namespace Loop

variable {env : CommandEnv} {l l' : Loop}

/-- The outputs are in order, and none is ahead of the thread. -/
structure Told (l : Loop) : Prop where
  sent : l.log.Pairwise Output.NotLess
  bounded : ∀ o ∈ l.log, ∀ u ∈ o.usage, u ≤ l.state.config.accumulatedUsage

/-- Larger totals are reported, and nothing else. -/
theorem Told.report (h : l.Told)
    (hle : l.state.config.accumulatedUsage ≤ l'.state.config.accumulatedUsage) {sent : List Output}
    (hlog : l'.log = sent ++ l.log)
    (hsent : ∀ o ∈ sent, ∀ u ∈ o.usage, u = l'.state.config.accumulatedUsage) : l'.Told := by
  constructor
  · rw [hlog]
    refine pairwise_append.2 ⟨?_, h.sent, fun newer hnewer older holder u hu v hv => ?_⟩
    · refine pairwise_iff_forall_sublist.2 fun {o o'} hsub u hu v hv => ?_
      have ho := hsub.subset (mem_cons_self : o ∈ [o, o'])
      have ho' := hsub.subset (mem_cons_of_mem o (mem_singleton_self o'))
      rw [hsent o ho u hu, hsent o' ho' v hv]
    · rw [hsent newer hnewer u hu]
      exact (h.bounded older holder v hv).trans hle
  · intro o ho u hu
    rw [hlog] at ho
    rcases mem_append.1 ho with hnew | hold
    · exact (hsent o hnew u hu).le
    · exact (h.bounded o hold u hu).trans hle

theorem Act.usage (h : Act env l l') :
    l'.state.config.accumulatedUsage = l.state.config.accumulatedUsage ∧
      ∃ sent : List Output, l'.log = sent ++ l.log ∧
        ∀ o ∈ sent, ∀ u ∈ o.usage, u = l.state.config.accumulatedUsage := by
  cases h with
  | inner hconfig hrecord hlog =>
    exact ⟨congrArg SessionConfig.accumulatedUsage hconfig, [], hlog, by simp⟩
  | configure hmodified husage => exact ⟨husage, [], rfl, by simp⟩
  | send h =>
    refine ⟨rfl, [_], rfl, fun o ho => ?_⟩
    rw [mem_singleton.1 ho]
    exact h.usage
  | broadcast h =>
    refine ⟨rfl, [_], rfl, fun o ho => ?_⟩
    rw [mem_singleton.1 ho]
    exact (h _).usage
  | writeRecord => exact ⟨rfl, [], rfl, by simp⟩
  | persist =>
    refine ⟨rfl, [_], rfl, fun o ho u hu => ?_⟩
    rw [mem_singleton.1 ho] at hu
    exact (some.inj hu).symm

theorem Acts.usage (h : Acts env l l') :
    l'.state.config.accumulatedUsage = l.state.config.accumulatedUsage ∧
      ∃ sent : List Output, l'.log = sent ++ l.log ∧
        ∀ o ∈ sent, ∀ u ∈ o.usage, u = l.state.config.accumulatedUsage := by
  induction h with
  | refl => exact ⟨rfl, [], rfl, by simp⟩
  | tail _ hact ih =>
    obtain ⟨husage, sent, hlog, hsent⟩ := ih
    obtain ⟨husage', sent', hlog', hsent'⟩ := hact.usage
    refine ⟨husage'.trans husage, sent' ++ sent, ?_, fun o ho => ?_⟩
    · rw [hlog', hlog, append_assoc]
    · rcases mem_append.1 ho with hnew | hold
      · rw [← husage]
        exact hsent' o hnew
      · exact hsent o hold

/-- A command that carries totals in order leaves the thread with them, and reports no others. -/
theorem processCommand_usage (env : CommandEnv) {command : SessionCommand} (l : Loop)
    (h : command.Carries l.state.config.accumulatedUsage) :
    (l.processCommand env command).1.state.config.accumulatedUsage =
        command.after l.state.config.accumulatedUsage ∧
      ∃ sent : List Output, (l.processCommand env command).1.log = sent ++ l.log ∧
        ∀ o ∈ sent, ∀ u ∈ o.usage, u = command.after l.state.config.accumulatedUsage := by
  cases command with
  | requestFinished requestId snapshot =>
    obtain ⟨-, husage, -, metadata, recipients, -, hmetadata, hlog⟩ :=
      l.handleRequestFinished_reports env requestId snapshot
    have hsame : snapshot.config.accumulatedUsage = l.state.config.accumulatedUsage := h _ rfl
    refine ⟨husage.trans hsame, [_, _, _], hlog, fun o ho u hu => ?_⟩
    simp only [mem_cons, not_mem_nil, or_false] at ho
    rcases ho with rfl | rfl | rfl
    · cases hu
    · cases hu
    · exact (some.inj hu).symm.trans (hmetadata.trans hsame)
  | broadcast event =>
    refine ⟨rfl, [_], rfl, fun o ho u hu => ?_⟩
    rw [mem_singleton.1 ho] at hu
    exact h u hu
  | syncAccumulatedUsage tokenUsage lastPromptTokens =>
    have hmerged := TokenUsage.mergeMax_eq_of_le h
    refine ⟨hmerged, [_, _], rfl, fun o ho u hu => ?_⟩
    rcases mem_pair.1 ho with rfl | rfl
    · exact (some.inj hu).symm.trans hmerged
    · exact (some.inj hu).symm.trans hmerged
  | _ => exact (processCommand_acts env rfl l).usage

theorem sessionMain_reports (boot : BootEnv) (record : SessionRecord) (store : Store)
    (log : List Output) :
    ∃ sent : List Output, (sessionMain boot record store log).log = sent ++ log ∧
      ∀ o ∈ sent, ∀ u ∈ o.usage,
        u = (sessionMain boot record store log).state.config.accumulatedUsage := by
  unfold sessionMain
  dsimp only
  cases record.selectedModel.bind fun model => boot.provider.bind fun provider =>
      provider.resolveContextWindow boot.catalog model with
  | none =>
    refine ⟨[_], rfl, fun o ho u hu => ?_⟩
    rw [mem_singleton.1 ho] at hu
    exact (some.inj hu).symm
  | some cw =>
    refine ⟨[_, _], rfl, fun o ho u hu => ?_⟩
    rcases mem_pair.1 ho with rfl | rfl
    · exact (some.inj hu).symm
    · cases hu

end Loop

/-! ### What is in flight -/

namespace System

/-- The totals and the turns that the session has, or will have once its request is over. -/
def ahead (s : System) : TokenUsage × TurnMap :=
  match s.worker, s.queue.findSome? SessionCommand.snapshot with
  | some w, _ => (w.session.config.accumulatedUsage, w.session.turns)
  | none, some snapshot => (snapshot.config.accumulatedUsage, snapshot.turns)
  | none, none => (s.loop.state.config.accumulatedUsage, s.loop.state.turns)

/-- The commands that the session thread has not handled, and those its worker is about to send. -/
def commands (s : System) : List SessionCommand :=
  s.queue ++ s.worker.elim [] Worker.outbox

variable {setup : AgentSetup} {label : SystemLabel} {s s' : System}

theorem ahead_of_worker {w : Worker} (hw : s.worker = some w) :
    s.ahead = (w.session.config.accumulatedUsage, w.session.turns) := by
  unfold ahead
  rw [hw]

theorem ahead_of_idle (h : s.pending = []) :
    s.ahead = (s.loop.state.config.accumulatedUsage, s.loop.state.turns) ∧
      s.commands = s.queue := by
  unfold pending at h
  rw [append_eq_nil_iff, map_eq_nil_iff, toList_eq_nil_iff] at h
  obtain ⟨hw, hqueue⟩ := h
  have hnone : s.queue.findSome? SessionCommand.snapshot = none := by
    refine List.findSome?_eq_none_iff.2 fun command hcommand => ?_
    exact SessionCommand.snapshot_of_finishedId (filterMap_eq_nil_iff.1 hqueue _ hcommand)
  unfold ahead commands
  rw [hw, hnone]
  exact ⟨rfl, append_nil _⟩

/-- A change of the channel that concerns no end of a request. -/
theorem ahead_congr (hworker : s'.worker = s.worker)
    (hqueue : s'.queue.findSome? SessionCommand.snapshot =
      s.queue.findSome? SessionCommand.snapshot) (hpending : s.pending ≠ []) :
    s'.ahead = s.ahead := by
  unfold ahead
  rw [hworker, hqueue]
  cases hw : s.worker with
  | some w => rfl
  | none =>
    cases hsnap : s.queue.findSome? SessionCommand.snapshot with
    | some snapshot => rfl
    | none =>
      refine absurd ?_ hpending
      unfold pending
      rw [hw]
      refine filterMap_eq_nil_iff.2 fun command hcommand => ?_
      have hnone := List.findSome?_eq_none_iff.1 hsnap command hcommand
      cases command with
      | requestFinished requestId snapshot => cases hnone
      | _ => rfl

/-! ### The condition and the property -/

/-- The condition on a step. The worker counts safely; when a request ends, every new turn is
written, unless its tokens are stored already; and a session thread only starts when it can read its
turns, their sum fits into the counters, and the tokens of all turns, also those of a request in
flight, are stored. -/
def CountsSafely (label : SystemLabel) (s : System) : Prop :=
  match label with
  | .send _ => True
  | .process env => ∀ snapshot ∈ s.finishing, ∀ entry ∈ snapshot.turns.toList,
      s.loop.state.turns[entry.1]? = none →
        env.turnWrite entry.1 = true ∨
          ∀ c, entry.2.tokens c ≤ tokensAt s.loop.store.readable entry.1 c
  | .work wlabel => ∀ w ∈ s.worker, w.CountsSafely wlabel
  | .restart boot => boot.readOk = true ∧
      (∀ c, s.loop.store.readable.weight (Turn.tokens c) < 2 ^ 32) ∧
      ∀ entry ∈ s.ahead.2.toList, ∀ c, entry.2.tokens c ≤ tokensAt s.loop.store.readable entry.1 c

instance (label : SystemLabel) (s : System) : Decidable (CountsSafely label s) :=
  match label with
  | .send _ => isTrue trivial
  | .process env =>
    inferInstanceAs (Decidable (∀ snapshot ∈ s.finishing, ∀ entry ∈ snapshot.turns.toList,
      s.loop.state.turns[entry.1]? = none →
        env.turnWrite entry.1 = true ∨
          ∀ c, entry.2.tokens c ≤ tokensAt s.loop.store.readable entry.1 c))
  | .work wlabel => inferInstanceAs (Decidable (∀ w ∈ s.worker, w.CountsSafely wlabel))
  | .restart boot =>
    inferInstanceAs (Decidable (boot.readOk = true ∧
      (∀ c, s.loop.store.readable.weight (Turn.tokens c) < 2 ^ 32) ∧
      ∀ entry ∈ s.ahead.2.toList, ∀ c,
        entry.2.tokens c ≤ tokensAt s.loop.store.readable entry.1 c))

/-- The totals of the worker are exact; when nothing is in flight, those of the session are exact,
and a session thread that starts from the store comes to the same; and no totals that were sent are
smaller than earlier ones. -/
structure Accounted (s : System) : Prop where
  working : ∀ w ∈ s.worker, w.session.config.accumulatedUsage.SumOf w.session.turns
  quiescent : s.live = true → s.worker = none → s.queue = [] →
    s.loop.state.config.accumulatedUsage.SumOf s.loop.state.turns ∧
    ∀ boot record log, boot.readOk = true →
      (Loop.sessionMain boot record s.loop.store log).state.config.accumulatedUsage =
        s.loop.state.config.accumulatedUsage
  told : s.loop.log.Pairwise Output.NotLess

/-- The accounts at any time. What was told is in order; the totals on their way lead to those ahead,
which are the sum over the turns ahead; the turns in memory are among these; the turns are stored
with their tokens, except for new turns; and the worker counts from turns in memory. -/
structure UsageInvariant (s : System) : Prop where
  told : s.loop.Told
  flow : Flow s.loop.state.config.accumulatedUsage s.commands s.ahead.1
  sum : s.ahead.1.SumOf s.ahead.2
  memory : ∀ k c, s.loop.state.turns[k]?.isSome = true →
    tokensAt s.ahead.2 k c = tokensAt s.loop.state.turns k c
  stored : s.live = true → ∀ k c,
    tokensAt s.loop.store.readable k c = tokensAt s.ahead.2 k c ∨
      s.loop.state.turns[k]? = none ∧ tokensAt s.loop.store.readable k c = 0
  worker : ∀ w, s.worker = some w → w.Counted ∧
    w.initialSnapshot.config.accumulatedUsage ≤ s.loop.state.config.accumulatedUsage ∧
    ∀ k : ℕ, w.initialSnapshot.turns[k]?.isSome = s.loop.state.turns[k]?.isSome

theorem init_usageInvariant (store : Store) : (init store).UsageInvariant where
  told := ⟨List.Pairwise.nil, fun _ ho => absurd ho not_mem_nil⟩
  flow := rfl
  sum c := by
    change TokenUsage.tokens {} c = 0
    cases c <;> rfl
  memory _ _ _ := rfl
  stored h := by cases h
  worker _ hw := by cases hw

/-- A session with nothing in flight. -/
theorem UsageInvariant.of_idle
    (hidle : s.ahead = (s.loop.state.config.accumulatedUsage, s.loop.state.turns))
    (told : s.loop.Told)
    (flow : Flow s.loop.state.config.accumulatedUsage s.commands
      s.loop.state.config.accumulatedUsage)
    (sum : s.loop.state.config.accumulatedUsage.SumOf s.loop.state.turns)
    (stored : s.live = true → ∀ k c,
      tokensAt s.loop.store.readable k c = tokensAt s.loop.state.turns k c)
    (worker : ∀ w, s.worker = some w → w.Counted ∧
      w.initialSnapshot.config.accumulatedUsage ≤ s.loop.state.config.accumulatedUsage ∧
      ∀ k : ℕ, w.initialSnapshot.turns[k]?.isSome = s.loop.state.turns[k]?.isSome) :
    s.UsageInvariant where
  told := told
  flow := by
    rw [hidle]
    exact flow
  sum := by
    rw [hidle]
    exact sum
  memory k c _ := by rw [hidle]
  stored hlive k c := by
    rw [hidle]
    exact Or.inl (stored hlive k c)
  worker := worker

theorem UsageInvariant.stored_of_idle (h : s.UsageInvariant) (hpending : s.pending = [])
    (hlive : s.live = true) (k : ℕ) (c : Counter) :
    tokensAt s.loop.store.readable k c = tokensAt s.loop.state.turns k c := by
  have hstored := h.stored hlive k c
  rw [(ahead_of_idle hpending).1] at hstored
  rcases hstored with hstored | ⟨hnone, hzero⟩
  · exact hstored
  · rw [hzero, tokensAt_of_none hnone]

theorem UsageInvariant.accounted (h : s.UsageInvariant) : s.Accounted where
  working w hw := (h.worker w hw).1.sum
  quiescent hlive hworker hqueue := by
    have hpending : s.pending = [] := by
      unfold pending
      rw [hworker, hqueue]
      rfl
    have hsum := h.sum
    rw [(ahead_of_idle hpending).1] at hsum
    have hreadable : s.loop.state.config.accumulatedUsage.SumOf s.loop.store.readable :=
      TokenUsage.SumOf.congr hsum (h.stored_of_idle hpending hlive)
    refine ⟨hsum, fun boot record log hread => TokenUsage.tokens_injective (funext fun c => ?_)⟩
    rw [Loop.sumOf_sessionMain record s.loop.store log hread (fun c => ?_) c, hreadable c]
    rw [← hreadable c]
    exact TokenUsage.tokens_lt _ c
  told := h.told.sent

variable {command : SessionCommand}

/-! ### Runs -/

theorem send_usageInvariant (h : s.UsageInvariant)
    (hext : command.isExternal = true) :
    UsageInvariant { s with queue := s.queue ++ [command] } := by
  have hsnap : command.snapshot = none :=
    SessionCommand.snapshot_of_finishedId (SessionCommand.finishedId_of_isExternal hext)
  have hahead : ahead { s with queue := s.queue ++ [command] } = s.ahead := by
    unfold ahead
    rw [List.findSome?_append, List.findSome?_singleton, hsnap, or_none]
  refine ⟨h.told, ?_, hahead ▸ h.sum, hahead ▸ h.memory, hahead ▸ h.stored, h.worker⟩
  obtain ⟨middle, hfirst, hrest⟩ := Flow.append.1 h.flow
  obtain ⟨hcarries, hafter⟩ :=
    SessionCommand.carries_of_usage (SessionCommand.usage_of_isExternal hext) middle
  rw [hahead]
  refine Flow.append.2 ⟨middle, Flow.append.2 ⟨middle, hfirst, hcarries, ?_⟩, hrest⟩
  exact hafter

variable {queue : List SessionCommand}

/-- The session thread handles a command that ends no request. -/
theorem continued_usageInvariant (hs : s.Invariant) (h : s.UsageInvariant) (hlive : s.live = true)
    (env : CommandEnv)
    (hqueue : s.queue = command :: queue) (hfin : command.finishedId = none) :
    (s.continued env command queue).UsageInvariant := by
  set l' := (s.loop.clearSpawned.processCommand env command).1 with hl'
  have hcommand : ∀ requestId snapshot, command ≠ .requestFinished requestId snapshot := by
    rintro requestId snapshot rfl
    cases hfin
  have hflow := h.flow
  unfold commands at hflow
  rw [hqueue] at hflow
  obtain ⟨hcarries, hrest⟩ := hflow
  obtain ⟨husage, sent, hlog, hsent⟩ := s.loop.clearSpawned.processCommand_usage env hcarries
  have hle : s.loop.state.config.accumulatedUsage ≤ l'.state.config.accumulatedUsage := by
    rw [hl', husage]
    exact SessionCommand.le_after hcarries
  have htold : l'.Told :=
    h.told.report hle hlog fun o ho u hu => (hsent o ho u hu).trans husage.symm
  have hflow' : Flow l'.state.config.accumulatedUsage
      (queue ++ s.worker.elim [] Worker.outbox) s.ahead.1 := by
    rw [hl', husage]
    exact hrest
  have htokens := fun k c => s.loop.clearSpawned.processCommand_tokens env command hcommand k c
  have hids : ∀ k : ℕ, l'.state.turns[k]?.isSome = s.loop.state.turns[k]?.isSome := fun k =>
    ((s.loop.clearSpawned.processCommand_ids env command hcommand).2 k).1
  by_cases hpending : s.pending = []
  · obtain ⟨hidle, hcommands⟩ := ahead_of_idle hpending
    have hsum := h.sum
    rw [hidle] at hsum hflow'
    have hworker : s.worker = none := by
      unfold pending at hpending
      rw [append_eq_nil_iff, map_eq_nil_iff, toList_eq_nil_iff] at hpending
      exact hpending.1
    rw [hworker, elim_none, append_nil] at hflow'
    have hsame : l'.state.config.accumulatedUsage = s.loop.state.config.accumulatedUsage :=
      le_antisymm hflow'.le hle
    rw [← hsame] at hflow' hsum
    have hsum' : l'.state.config.accumulatedUsage.SumOf l'.state.turns :=
      hsum.congr fun k c => (htokens k c).1
    have hstored : ∀ k c,
        tokensAt l'.store.readable k c = tokensAt l'.state.turns k c := by
      intro k c
      have hold := h.stored_of_idle hpending hlive k c
      obtain ⟨hturns, hrows⟩ := htokens k c
      rw [hl', hturns]
      rcases hrows with hrows | ⟨-, hrows⟩
      · exact hrows.trans hold
      · exact hrows
    rcases continued_worker hs env command queue with
      hsameWorker | ⟨requestId, args, haccepts, -, hspawn⟩
    · have hpending' : (s.continued env command queue).pending = [] := by
        unfold pending at hpending ⊢
        rw [hsameWorker]
        rw [hqueue, filterMap_cons_none hfin] at hpending
        exact hpending
      obtain ⟨hidle', hcommands'⟩ := ahead_of_idle hpending'
      refine .of_idle hidle' htold ?_ hsum' (fun _ => hstored) fun w hw => ?_
      · rw [hcommands']
        exact hflow'
      · cases (hsameWorker.trans hworker).symm.trans hw
    · have hsession : (Worker.spawn args).session =
          SessionState.fromSnapshot l'.state.snapshot ∅ := haccepts.args_session
      have hbase : (Worker.spawn args).initialSnapshot = l'.state.snapshot := by
        change args.session.snapshot = _
        rw [haccepts.args_session]
        rfl
      refine .of_idle ?_ htold ?_ hsum' (fun _ => hstored) fun w hw => ?_
      · rw [ahead_of_worker hspawn, hsession]
        rfl
      · unfold commands
        rw [hspawn]
        change Flow _ (queue ++ []) _
        rw [append_nil]
        exact hflow'
      · cases hspawn.symm.trans hw
        refine ⟨Worker.spawn_counted haccepts.args_session hsum', ?_, fun k => ?_⟩
        · rw [hbase]
          exact le_refl _
        · rw [hbase]
          rfl
  · obtain ⟨-, hworker⟩ := continued_pending hs env hqueue hfin hpending
    have hahead : (s.continued env command queue).ahead = s.ahead := by
      refine ahead_congr hworker ?_ hpending
      rw [hqueue, List.findSome?_cons, SessionCommand.snapshot_of_finishedId hfin]
      rfl
    refine ⟨htold, ?_, ?_, fun k c hk => ?_, fun _ k c => ?_, fun w hw => ?_⟩
    · unfold commands
      rw [hworker, hahead]
      exact hflow'
    · rw [hahead]
      exact h.sum
    · rw [hahead]
      exact (h.memory k c ((hids k).symm.trans hk)).trans (htokens k c).1.symm
    · rw [hahead]
      have hnone : l'.state.turns[k]? = none ↔ s.loop.state.turns[k]? = none := by
        rw [← isNone_iff_eq_none, ← isNone_iff_eq_none, ← not_isSome,
          ← not_isSome, hids k]
      change tokensAt l'.store.readable k c = _ ∨
        l'.state.turns[k]? = none ∧ tokensAt l'.store.readable k c = 0
      rw [hnone]
      rcases (htokens k c).2 with hrows | ⟨hsome, hrows⟩
      · rw [show tokensAt l'.store.readable k c = tokensAt s.loop.store.readable k c from hrows]
        exact h.stored hlive k c
      · exact Or.inl (hrows.trans (h.memory k c hsome).symm)
    · rw [hworker] at hw
      obtain ⟨hcounted, hbase, hturns⟩ := h.worker w hw
      exact ⟨hcounted, hbase.trans hle, fun k => (hturns k).trans (hids k).symm⟩

/-- The session thread handles the end of a request. -/
theorem finished_usageInvariant (hs : s.Invariant) (h : s.UsageInvariant) (hlive : s.live = true)
    {env : CommandEnv} {requestId : ℕ} {snapshot : SessionSnapshot}
    (hqueue : s.queue = .requestFinished requestId snapshot :: queue)
    (hsafe : CountsSafely (.process env) s) :
    (s.continued env (.requestFinished requestId snapshot) queue).UsageInvariant := by
  set l' := (s.loop.clearSpawned.processCommand env (.requestFinished requestId snapshot)).1
    with hl'
  obtain ⟨-, hpending'⟩ := continued_invariant_of_finished hs hlive env hqueue
  have hworker : s.worker = none := by
    cases hw : s.worker with
    | none => rfl
    | some w =>
      have hnil := hs.finished_of_worker hw
      rw [hqueue] at hnil
      cases hnil
  have hahead : s.ahead = (snapshot.config.accumulatedUsage, snapshot.turns) := by
    unfold ahead
    rw [hworker, hqueue]
    rfl
  have hflow := h.flow
  unfold commands at hflow
  rw [hqueue, hworker, hahead] at hflow
  obtain ⟨hcarries, hrest⟩ := hflow
  have hsnap : snapshot.config.accumulatedUsage = s.loop.state.config.accumulatedUsage :=
    hcarries _ rfl
  obtain ⟨husage, sent, hlog, hsent⟩ := s.loop.clearSpawned.processCommand_usage env hcarries
  have hsame : l'.state.config.accumulatedUsage = snapshot.config.accumulatedUsage :=
    husage.trans hsnap.symm
  have hfinishing : snapshot ∈ s.finishing := by
    rw [finishing, hqueue]
    rfl
  have htokens : ∀ k c, tokensAt l'.state.turns k c = tokensAt snapshot.turns k c ∧
      tokensAt l'.store.readable k c = tokensAt snapshot.turns k c := by
    intro k c
    have hmemory := h.memory k c
    have hstored := h.stored hlive k c
    rw [hahead] at hmemory hstored
    refine s.loop.clearSpawned.requestFinished_tokens env requestId snapshot k c hmemory hstored
      fun turn hturn hnone => ?_
    have hentry := Std.ExtTreeMap.mem_toList_iff_getElem?_eq_some.2 hturn
    exact (hsafe snapshot hfinishing (k, turn) hentry hnone).imp_right fun hle => hle c
  have hsum := h.sum
  rw [hahead] at hsum
  obtain ⟨hidle', hcommands'⟩ := ahead_of_idle hpending'
  refine .of_idle hidle' (h.told.report ?_ hlog fun o ho u hu => ?_) ?_ ?_ (fun _ k c => ?_)
    fun w hw => ?_
  · exact (hsnap.symm.trans hsame.symm).le
  · exact (hsent o ho u hu).trans husage.symm
  · rw [hcommands']
    change Flow l'.state.config.accumulatedUsage queue l'.state.config.accumulatedUsage
    change Flow s.loop.state.config.accumulatedUsage (queue ++ []) snapshot.config.accumulatedUsage
      at hrest
    rw [append_nil, ← hsnap] at hrest
    rw [hsame]
    exact hrest
  · change l'.state.config.accumulatedUsage.SumOf l'.state.turns
    rw [hsame]
    exact hsum.congr fun k c => (htokens k c).1
  · exact (htokens k c).2.trans (htokens k c).1.symm
  · unfold pending at hpending'
    rw [hw] at hpending'
    cases hpending'

/-- The session thread handles a command. -/
theorem processStep_usageInvariant (hs : s.Invariant) (h : s.UsageInvariant) (hlive : s.live = true)
    {env : CommandEnv}
    (hqueue : s.queue = command :: queue) (hsafe : CountsSafely (.process env) s) :
    (s.processStep env command queue).UsageInvariant := by
  have hcont : (s.continued env command queue).UsageInvariant := by
    cases hfin : command.finishedId with
    | none => exact continued_usageInvariant hs h hlive env hqueue hfin
    | some requestId =>
      cases command with
      | requestFinished requestId snapshot => exact finished_usageInvariant hs h hlive hqueue hsafe
      | _ => cases hfin
  rcases s.processStep_cases env command queue with heq | ⟨hempty, heq⟩
  · rw [heq]
    exact hcont
  · have hpending := (continued_invariant hs hlive env hqueue).pending_of_isEmpty hempty
    have hsum := hcont.sum
    rw [(ahead_of_idle hpending).1] at hsum
    have hinv := processStep_invariant hs hlive env hqueue
    rw [heq] at hinv ⊢
    obtain ⟨hidle, hcommands⟩ := ahead_of_idle (hinv.stopped rfl).1
    have htold : ((s.continued env command queue).loop.persistAndExit env).Told := by
      refine hcont.told.report (le_refl _) (cons_eq_append_iff.2 (Or.inr ⟨[], rfl, rfl⟩)) ?_
      intro o ho u hu
      rw [mem_singleton.1 ho] at hu
      cases hu
    refine .of_idle hidle htold ?_ hsum (fun hstop => by cases hstop) fun w hw => ?_
    · rw [hcommands]
      rfl
    · cases hinv.live_of_worker hw

/-- The worker makes a step. -/
theorem workStep_usageInvariant (hs : s.Invariant) (h : s.UsageInvariant) {w : Worker}
    (hworker : s.worker = some w) {wlabel : WorkerLabel} {effect : WorkerEffect}
    (hstep : w.step setup (s.cancelPending w) wlabel s.loop.store = some effect)
    (hsafe : CountsSafely (.work wlabel) s) : (s.workStep effect).UsageInvariant := by
  have hlive := hs.live_of_worker hworker
  have hw := hs.worker w hworker
  obtain ⟨hcounted, hbase, hids⟩ := h.worker w hworker
  have hahead := ahead_of_worker hworker
  have hsum := h.sum
  have hmemory := h.memory
  have hstored := h.stored hlive
  have hflow := h.flow
  unfold commands at hflow
  rw [hahead] at hsum hmemory hstored hflow
  rw [hworker, elim_some] at hflow
  obtain ⟨middle, hfirst, hrest⟩ := Flow.append.1 hflow
  have hqueue : (s.workStep effect).queue = s.queue ++ effect.command.toList := by
    simp only [workStep, hlive, if_true]
  rcases Worker.step_shape hstep with ⟨w', hw', -, -, hout, -⟩ | ⟨outcome, snapshot, hpc, rfl⟩
  · have hcounts := Worker.step_counted hw hcounted (hsafe w hworker) hstep hw'
    have hahead' : (s.workStep effect).ahead =
        (w'.session.config.accumulatedUsage, w'.session.turns) := ahead_of_worker hw'
    have hfree : ∀ k : ℕ, w.pc = .calling k → s.loop.state.turns[k]? = none := by
      intro k hk
      have hnone := (hcounted.calling k hk).1
      rw [← isNone_iff_eq_none, ← not_isSome, ← hids k, hnone]
      rfl
    have hlog : (s.workStep effect).loop.log = s.loop.log := by
      change effect.output.toList ++ s.loop.log = s.loop.log
      rw [hout]
      rfl
    refine ⟨⟨hlog ▸ h.told.sent, hlog ▸ h.told.bounded⟩, ?_, ?_, fun k c hk => ?_, fun _ k c => ?_,
      fun w'' hw'' => ?_⟩
    · have hcommands : (s.workStep effect).commands =
          s.queue ++ (effect.command.toList ++ w'.outbox) := by
        unfold commands
        rw [hqueue, show (s.workStep effect).worker = some w' from hw', elim_some,
          append_assoc]
      rw [hcommands, hahead']
      exact Flow.append.2 ⟨middle, hfirst, hcounts.flow middle (hbase.trans hfirst.le) hrest⟩
    · rw [hahead']
      exact hcounts.counted.sum
    · rw [hahead']
      rcases hcounts.tokens k c with hsame | hcalling
      · exact hsame.trans (hmemory k c hk)
      · change s.loop.state.turns[k]?.isSome = true at hk
        rw [hfree k hcalling] at hk
        cases hk
    · rw [hahead']
      change tokensAt effect.store.readable k c = tokensAt w'.session.turns k c ∨
        s.loop.state.turns[k]? = none ∧ tokensAt effect.store.readable k c = 0
      rcases Worker.step_store hstep with hstore | ⟨t, outcome, turn, -, hpc, hturn, hstore⟩
      · rw [hstore]
        rcases hcounts.tokens k c with hsame | hcalling
        · rw [hsame]
          exact hstored k c
        · refine Or.inr ⟨hfree k hcalling, ?_⟩
          rcases hstored k c with hold | ⟨-, hzero⟩
          · exact hold.trans ((hcounted.calling k hcalling).2 c)
          · exact hzero
      · have hsame : tokensAt w'.session.turns k c = tokensAt w.session.turns k c :=
          (hcounts.tokens k c).resolve_right fun hcalling => by
            rw [hpc] at hcalling
            cases hcalling
        rw [hstore, tokensAt_writeTurn, hsame]
        split_ifs with hk
        · rw [hk]
          exact Or.inl (tokensAt_of_get hturn c).symm
        · exact hstored k c
    · cases hw'.symm.trans hw''
      refine ⟨hcounts.counted, ?_, fun k => ?_⟩
      · rw [hcounts.base]
        exact hbase
      · rw [hcounts.base]
        exact hids k
  · obtain ⟨-, hnil⟩ := Worker.step_over hstep rfl
    obtain ⟨husage, htokens⟩ := hcounted.handedBack snapshot (by rw [hpc]; rfl)
    rw [hnil] at hrest
    cases hrest
    set s' := s.workStep _ with hs'
    have hahead' : s'.ahead = (snapshot.config.accumulatedUsage, snapshot.turns) := by
      have hnone : s.queue.findSome? SessionCommand.snapshot = none := by
        refine List.findSome?_eq_none_iff.2 fun command hcommand => ?_
        exact SessionCommand.snapshot_of_finishedId
          (filterMap_eq_nil_iff.1 (hs.finished_of_worker hworker) command hcommand)
      unfold ahead
      rw [hqueue, List.findSome?_append, hnone]
      rfl
    have htold : s'.loop.Told := by
      refine h.told.report (le_refl _) rfl fun o ho u hu => ?_
      obtain ⟨reply, -, rfl⟩ := map_eq_some_iff.1 (mem_toList.1 ho)
      cases hu
    refine ⟨htold, ?_, ?_, fun k c hk => ?_, fun _ k c => ?_, fun w' hw' => by cases hw'⟩
    · rw [hahead']
      unfold commands
      rw [hqueue]
      change Flow _ (s.queue ++ [.requestFinished w.requestId snapshot] ++ []) _
      rw [append_nil]
      refine Flow.append.2 ⟨_, hfirst, fun u hu => ?_, husage.symm⟩
      exact (some.inj hu).symm.trans husage
    · rw [hahead', husage]
      exact hsum.congr htokens
    · rw [hahead', htokens]
      exact hmemory k c hk
    · rw [hahead', htokens]
      exact hstored k c

/-- The session starts from its store. -/
theorem restart_usageInvariant (h : s.UsageInvariant) {boot : BootEnv} (record : SessionRecord)
    (hsafe : CountsSafely (.restart boot) s) :
    UsageInvariant
      { live := true
        loop := Loop.sessionMain boot record s.loop.store s.loop.log
        queue := []
        worker := none } := by
  obtain ⟨hread, hfits, hsaved⟩ := hsafe
  obtain ⟨hturns, -⟩ := Loop.sessionMain_readable record s.loop.store s.loop.log hread
  have hsum := Loop.sumOf_sessionMain record s.loop.store s.loop.log hread hfits
  have htokens : ∀ k c, tokensAt s.ahead.2 k c ≤ tokensAt s.loop.store.readable k c := by
    intro k c
    cases hturn : s.ahead.2[k]? with
    | none =>
      rw [tokensAt_of_none hturn]
      exact Nat.zero_le _
    | some turn =>
      rw [tokensAt_of_get hturn]
      exact hsaved (k, turn) (Std.ExtTreeMap.mem_toList_iff_getElem?_eq_some.2 hturn) c
  have hle := h.flow.le.trans (h.sum.le hsum htokens)
  obtain ⟨sent, hlog, hsent⟩ := Loop.sessionMain_reports boot record s.loop.store s.loop.log
  refine .of_idle rfl (h.told.report hle hlog hsent) rfl ?_ (fun _ k c => ?_)
    fun w hw => by cases hw
  · rw [hturns]
    exact hsum
  · rw [hturns]
    rfl

theorem step_usageInvariant (hs : s.Invariant) (h : s.UsageInvariant) (hsafe : CountsSafely label s)
    (hstep : s.step setup label = some s') : s'.UsageInvariant := by
  rcases step_cases hstep with ⟨command, rfl, hlive, hext, rfl⟩ |
    ⟨env, command, queue, rfl, hlive, hqueue, rfl⟩ | ⟨wlabel, w, effect, rfl, hworker, hwork, rfl⟩ |
    ⟨boot, record, rfl, hrecord, rfl⟩
  · exact send_usageInvariant h hext
  · exact processStep_usageInvariant hs h hlive hqueue hsafe
  · exact workStep_usageInvariant hs h hworker hwork hsafe
  · exact restart_usageInvariant h record hsafe

/-- In every state of a run whose steps count safely, the totals of the session are accounted for. -/
theorem counted_of_run (setup : AgentSetup) (store : Store) (labels : List SystemLabel)
    (hsafe : StepSystem.Along (step setup) CountsSafely labels (init store))
    (hrun : StepSystem.run (step setup) labels (init store) = some s) : s.Accounted := by
  have hboth : s.Invariant ∧ s.UsageInvariant :=
    StepSystem.invariant_of_along (I := fun s => s.Invariant ∧ s.UsageInvariant)
      (fun _ _ _ hG hI hstep => ⟨step_invariant hI.1 hstep, step_usageInvariant hI.1 hI.2 hG hstep⟩)
      ⟨init_invariant store, init_usageInvariant store⟩ hsafe hrun
  exact hboth.2.accounted

/-- The model answers with the given usage; the worker writes the turn, announces the outcome and
ends. -/
def countedAnswer (usage : TokenUsage) : List SystemLabel :=
  [.work (.reply (.finalText { content := "hello", usage := some usage })), .work .flush,
    .work (.finalize none), .work .flush, .work .leaveLoop, .work .conclude, .work .flush,
    .work .finish]

/-- A request whose usage is counted, and a start from the store after it. -/
def countedRequest : List SystemLabel :=
  [SystemLabel.restart Sample.boot] ++ Sample.post (.runInput 1 "again") ++ Sample.call ++
    countedAnswer { inputTokens := 5, outputTokens := 2, totalTokens := 7 } ++ Sample.drain 7 ++
    [SystemLabel.restart Sample.boot]

/-- A worker that panics after the usage of its call was counted and sent. -/
def countedPanic : List SystemLabel :=
  [SystemLabel.restart Sample.boot] ++ Sample.post (.runInput 1 "again") ++ Sample.call ++
    [SystemLabel.work (.reply (.finalText { content := "hello", usage := some { totalTokens := 7 } })),
      .work .flush, .work .panic, .work .conclude, .work .flush, .work .finish] ++ Sample.drain 6

/-- A turn with the given total. -/
def countedTurn (totalTokens : UInt32) : Turn :=
  { createdAt := 0, userText := some "hi", tokenUsage := some { totalTokens := totalTokens } }

theorem accounted_countedRequest :
    ∃ s, StepSystem.run (step Sample.setup) countedRequest (init Sample.oneTurn) = some s ∧
      s.Accounted := by
  have hsome : (StepSystem.run (step Sample.setup) countedRequest (init Sample.oneTurn)).isSome := by
    decide
  obtain ⟨s, hrun⟩ := isSome_iff_exists.1 hsome
  exact ⟨s, hrun, counted_of_run Sample.setup Sample.oneTurn countedRequest (by decide) hrun⟩

/-- After a panic clients see the totals go down; and a session whose turns add up to more than the
counters hold starts with less. -/
theorem not_accounted_countedPanic :
    (∃ s, StepSystem.run (step Sample.setup) countedPanic (init Sample.oneTurn) = some s ∧
      ¬ s.Accounted) ∧
    ∃ s, StepSystem.run (step Sample.setup) [.restart Sample.boot]
        (init (Sample.store [countedTurn 4294967295, countedTurn 2])) = some s ∧ ¬ s.Accounted := by
  constructor
  · have htotals : (StepSystem.run (step Sample.setup) countedPanic (init Sample.oneTurn)).map
        (fun s => (s.loop.log.filterMap Output.usage).map TokenUsage.totalTokens) =
        some [0, 7, 7, 0] := by
      decide
    obtain ⟨s, hrun, htotals⟩ := map_eq_some_iff.1 htotals
    refine ⟨s, hrun, fun hs => ?_⟩
    have hpairwise : ((s.loop.log.filterMap Output.usage).map TokenUsage.totalTokens).Pairwise
        fun t t' => t'.toNat ≤ t.toNat := by
      rw [pairwise_map]
      exact (pairwise_filterMap.2 hs.told).imp fun h => h .total
    rw [htotals] at hpairwise
    revert hpairwise
    decide
  · have htotals : (StepSystem.run (step Sample.setup) [.restart Sample.boot]
        (init (Sample.store [countedTurn 4294967295, countedTurn 2]))).map
        (fun s => (s.live && s.worker.isNone && s.queue.isEmpty,
          s.loop.state.config.accumulatedUsage.tokens .total,
          s.loop.state.turns.weight (Turn.tokens .total))) = some (true, 1, 4294967297) := by
      decide
    obtain ⟨s, hrun, htotals⟩ := map_eq_some_iff.1 htotals
    rw [Prod.mk.injEq, Prod.mk.injEq, Bool.and_eq_true, Bool.and_eq_true, isNone_iff_eq_none,
      List.isEmpty_iff] at htotals
    obtain ⟨⟨⟨hlive, hworker⟩, hqueue⟩, htotal, hweight⟩ := htotals
    refine ⟨s, hrun, fun hs => ?_⟩
    have hsum := (hs.quiescent hlive hworker hqueue).1 .total
    rw [htotal, hweight] at hsum
    revert hsum
    decide

end System

end Choreo
