import Choreo.Session.Serving
import Choreo.Session.Terminal

/-!
# Who a session thread serves

A client subscribes with an attach and stays a subscriber until a detach or a removal of it is
handled. The thread leaves its loop when the last subscriber or the last request goes, and on a
shutdown; an attach that waits in the channel does not keep it.
-/

namespace Choreo

open List Option

namespace Loop

variable {env : CommandEnv} {clientId : ℕ} {l : Loop}

/-- The subscribers that can still be reached. -/
def reachable (env : CommandEnv) (l : Loop) : Std.ExtTreeSet ℕ :=
  l.state.subscribers.filter fun clientId => !env.gone clientId

/-- Whether the loop ends once its requests and subscribers are the given ones. -/
def ends (requests : Std.ExtTreeMap ℕ ActiveRequest) (subscribers : Std.ExtTreeSet ℕ) (l : Loop) :
    Bool :=
  requests.isEmpty && (subscribers.isEmpty || l.shutdownRequested)

def leaves (env : CommandEnv) (command : SessionCommand) (l : Loop) : Bool :=
  match command with
  | .detach id | .removeSubscriber id =>
    l.ends l.state.activeRequests (l.state.subscribers.erase id)
  | .requestFinished id _ => l.ends (l.state.activeRequests.erase id) (l.reachable env)
  | .shutdown => l.state.activeRequests.isEmpty
  | _ => false

variable (command : SessionCommand)

/-- Whether the loop is, or with this command will be, told to end. -/
def shutsDown (l : Loop) : Bool :=
  l.shutdownRequested || (match command with
    | .shutdown => true
    | _ => false)

theorem leaves_clearSpawned :
    l.clearSpawned.leaves env command = l.leaves env command := by
  cases command <;> rfl

theorem shutsDown_clearSpawned :
    l.clearSpawned.shutsDown command = l.shutsDown command := rfl

theorem subscribers_handleRequestFinished (env : CommandEnv) (requestId : ℕ)
    (snapshot : SessionSnapshot) (l : Loop) :
    (l.handleRequestFinished env requestId snapshot).1.state.subscribers = l.reachable env := by
  have hmerge : ∀ (entries : List (ℕ × Turn)) (l : Loop),
      (entries.foldl (mergeTurn env) l).state.subscribers = l.state.subscribers := by
    intro entries
    induction entries with
    | nil => exact fun l => rfl
    | cons entry entries ih =>
      intro l
      rw [foldl_cons, ih]
      unfold mergeTurn
      dsimp only
      split
      · rfl
      · split_ifs <;> rfl
  unfold handleRequestFinished
  dsimp only
  change (List.foldl (mergeTurn env) _ _).state.subscribers.filter _ = _
  rw [hmerge]
  rfl

theorem subscribers_sessionMain (boot : BootEnv) (record : SessionRecord) (store : Store)
    (log : List Output) : (sessionMain boot record store log).state.subscribers = ∅ := by
  unfold sessionMain SessionState.loadTurns
  dsimp only
  split_ifs
  · rw [SessionState.foldl_loadTurn]
  · rfl

theorem serves_handleAttach (l : Loop) (hgone : env.gone clientId = false) :
    Serves env clientId (l.handleAttach env clientId).1.state.subscribers := by
  have hinsert : Serves env clientId (l.state.subscribers.insert clientId) :=
    ⟨hgone, Std.ExtTreeSet.mem_insert_self⟩
  exact serves_foldl (fun l (entry : ℕ × ActiveRequest) =>
    l.send (.direct clientId (.started entry.1 entry.2.turnId 0))) (fun _ _ hl => hl) _ hinsert

/-- The session thread leaves its loop in no other case. -/
theorem leaves_of_exit {command : SessionCommand} (h : (l.processCommand env command).2 = true) :
    l.leaves env command = true := by
  have hend := canEnd_of_exit h
  cases command with
  | detach clientId | removeSubscriber clientId => exact h
  | requestFinished requestId snapshot =>
    have hcanExit : (l.handleRequestFinished env requestId snapshot).1.canExit = true := h
    have hreq := requests_handleRequestFinished env requestId snapshot l
    simp only [requests, Prod.mk.injEq] at hreq
    unfold canExit at hcanExit
    rw [hreq.1, hreq.2.2, subscribers_handleRequestFinished] at hcanExit
    exact hcanExit
  | shutdown =>
    obtain ⟨hids, -⟩ := foldl_cancelRequest_requests env l.state.activeRequests.keys
      { l with shutdownRequested := true }
    have hempty := isEmpty_of_exit env .shutdown l h
    change l.state.activeRequests.isEmpty = true
    rw [Std.ExtTreeMap.isEmpty_iff] at hempty
    rw [Std.ExtTreeMap.isEmpty_iff]
    ext id active
    have hid := hids id
    change (l.processCommand env .shutdown).1.state.activeRequests[id]?.map _ = _ at hid
    rw [hempty, Std.ExtTreeMap.getElem?_empty, map_none, eq_comm, map_eq_none_iff] at hid
    rw [hid, Std.ExtTreeMap.getElem?_empty]
  | _ => cases hend

/-- A subscriber that is not taken off keeps the thread from leaving, unless it is shut down. -/
theorem shutsDown_of_exit {command : SessionCommand} (hserves : Serves env clientId l.state.subscribers)
    (hcommand : command.detaches clientId = false) (h : (l.processCommand env command).2 = true) :
    l.shutsDown command = true := by
  have hend := canEnd_of_exit h
  have hafter := (serves_processCommand hserves hcommand).2
  have hnonempty : (l.processCommand env command).1.state.subscribers.isEmpty = false := by
    rw [Bool.eq_false_iff, ne_eq, Std.ExtTreeSet.isEmpty_iff]
    intro hempty
    rw [hempty] at hafter
    exact Std.ExtTreeSet.not_mem_empty hafter
  have hflag : (l.processCommand env command).1.canExit = true →
      (l.processCommand env command).1.shutdownRequested = true := by
    intro hcanExit
    unfold canExit at hcanExit
    rw [hnonempty, Bool.false_or, Bool.and_eq_true] at hcanExit
    exact hcanExit.2
  unfold shutsDown
  cases command with
  | detach id | removeSubscriber id =>
    have hshutdown : l.shutdownRequested = true := hflag h
    simp [hshutdown]
  | requestFinished requestId snapshot =>
    have hreq := requests_handleRequestFinished env requestId snapshot l
    simp only [requests, Prod.mk.injEq] at hreq
    have hshutdown : l.shutdownRequested = true := hreq.2.2.symm.trans (hflag h)
    simp [hshutdown]
  | shutdown => simp
  | _ => cases hend

end Loop

namespace System

variable {setup : AgentSetup} {label : SystemLabel} {s s' : System} {clientId : ℕ}

/-- A client is a subscriber that no waiting command takes off, or its attach waits and no later
command takes it off. -/
def Attends (clientId : ℕ) (s : System) : Prop :=
  (clientId ∈ s.loop.state.subscribers ∧
    ∀ command ∈ s.queue, command.detaches clientId = false) ∨
  ∃ before after, s.queue = before ++ .attach clientId :: after ∧
    ∀ command ∈ after, command.detaches clientId = false

namespace Attends

/-- Commands that arrive and do not concern the client. -/
theorem append (h : s.Attends clientId) (commands : List SessionCommand)
    (hcommands : ∀ command ∈ commands, command.detaches clientId = false)
    (hsubscribers : s'.loop.state.subscribers = s.loop.state.subscribers)
    (hqueue : s'.queue = s.queue ++ commands) : s'.Attends clientId := by
  rcases h with ⟨hmem, hall⟩ | ⟨before, after, hsplit, hall⟩
  · refine Or.inl ⟨hsubscribers ▸ hmem, fun command hc => ?_⟩
    rw [hqueue, mem_append] at hc
    exact hc.elim (hall command) (hcommands command)
  · refine Or.inr ⟨before, after ++ commands, ?_, fun command hc => ?_⟩
    · rw [hqueue, hsplit, append_assoc, cons_append]
    · rw [mem_append] at hc
      exact hc.elim (hall command) (hcommands command)

/-- A session that runs on handles the next command. -/
theorem continued (h : s.Attends clientId) {env : CommandEnv} {command : SessionCommand}
    {queue : List SessionCommand} (hqueue : s.queue = command :: queue)
    (hgone : env.gone clientId = false) : (s.continued env command queue).Attends clientId := by
  rcases h with ⟨hmem, hall⟩ | ⟨before, after, hsplit, hall⟩
  · rw [hqueue, forall_mem_cons] at hall
    exact Or.inl ⟨(Loop.serves_processCommand (l := s.loop.clearSpawned) ⟨hgone, hmem⟩ hall.1).2,
      hall.2⟩
  · cases before with
    | nil =>
      rw [hqueue, nil_append, cons.injEq] at hsplit
      obtain ⟨rfl, rfl⟩ := hsplit
      exact Or.inl ⟨(Loop.serves_handleAttach s.loop.clearSpawned hgone).2, hall⟩
    | cons first before =>
      rw [hqueue, cons_append, cons.injEq] at hsplit
      exact Or.inr ⟨before, after, hsplit.2, hall⟩

end Attends

/-- What a worker sends takes no client off. -/
theorem detaches_of_work (hs : s.Invariant) {w : Worker} (hw : s.worker = some w)
    {wlabel : WorkerLabel} {effect : WorkerEffect} {command : SessionCommand}
    (h : w.step setup (s.cancelPending w) wlabel s.loop.store = some effect)
    (hcommand : effect.command = some command) : command.detaches clientId = false := by
  rcases Worker.step_shape h with ⟨w', -, -, -, -, hout⟩ | ⟨outcome, snapshot, -, rfl⟩
  · obtain ⟨-, hmem⟩ := hout command hcommand
    rcases (hs.worker w hw).outbox command hmem with hupdate | ⟨outcome, snapshot, -, hmem⟩
    · cases command <;> first | rfl | cases hupdate
    · cases outcome with
      | done | failed error =>
        rw [mem_singleton.1 hmem]
        rfl
      | cancelled => exact absurd hmem not_mem_nil
  · rw [← some.inj hcommand]
    rfl

theorem exit_of_step (hs : s.Invariant) (hrestart : label.isRestart = false)
    (hstep : s.step setup label = some s') (hlive : s'.live = false) :
    ∃ env command queue, label = .process env ∧ s.queue = command :: queue ∧
      (s.loop.clearSpawned.processCommand env command).2 = true := by
  rcases step_cases hstep with ⟨command, rfl, hold, -, rfl⟩ |
    ⟨env, command, queue, rfl, hold, hqueue, rfl⟩ | ⟨wlabel, w, effect, rfl, hw, -, rfl⟩ |
    ⟨_, _, rfl, -⟩
  · exact absurd (hold.symm.trans hlive) (by simp)
  · refine ⟨env, command, queue, rfl, hqueue, ?_⟩
    by_contra hexit
    rw [processStep_eq_continued (Bool.eq_false_iff.2 hexit)] at hlive
    exact absurd (hold.symm.trans hlive) (by simp)
  · exact absurd ((hs.live_of_worker hw).symm.trans hlive) (by simp)
  · cases hrestart

/-- A client stays attended as long as the thread runs: nobody takes it off, and its receiver is
there. -/
theorem step_attends (hs : s.Invariant) (h : s.Attends clientId)
    (hsend : ∀ command, label = .send command → command.detaches clientId = false)
    (hgone : ∀ env, label = .process env → env.gone clientId = false)
    (hrestart : label.isRestart = false) (hstep : s.step setup label = some s')
    (hlive : s'.live = true) : s'.Attends clientId := by
  rcases step_cases hstep with ⟨command, rfl, -, -, rfl⟩ | ⟨env, command, queue, rfl, -, hqueue, rfl⟩ |
    ⟨wlabel, w, effect, rfl, hw, heffect, rfl⟩ | ⟨_, _, rfl, -⟩
  · exact h.append [command] (by simpa using hsend command rfl) rfl rfl
  · rcases s.processStep_cases env command queue with heq | ⟨-, heq⟩
    · rw [heq]
      exact h.continued hqueue (hgone env rfl)
    · rw [heq] at hlive
      cases hlive
  · refine h.append effect.command.toList (fun command hc => ?_) rfl ?_
    · exact detaches_of_work hs hw heffect (mem_toList.1 hc)
    · simp only [workStep, hs.live_of_worker hw, if_true]
  · cases hrestart

/-- The outputs between two states of a session, oldest first. -/
def outputsBetween (s s' : System) : List Output :=
  (s'.loop.log.take (s'.loop.log.length - s.loop.log.length)).reverse

theorem outputsBetween_eq {sent : List Output} (h : s'.loop.log = sent ++ s.loop.log) :
    s.outputsBetween s' = sent.reverse := by
  unfold outputsBetween
  rw [h, length_append, Nat.add_sub_cancel, take_left]

end System

/-! ### Whom the outputs of a session thread address -/

/-- An output of a session thread to which a client subscribes, or does not: a broadcast is enqueued
to the client once, or not at all, and the output does not concern its subscription. -/
def Output.Fits (clientId : ℕ) (subscribed : Bool) : Output → Prop
  | .broadcast _ recipients => recipients.count clientId = subscribed.toNat
  | .trackSessionSubscription id | .untrackSessionSubscription id => id ≠ clientId
  | _ => True

theorem Output.fits_of_isPlain {o : Output} (h : o.isPlain = true) (clientId : ℕ)
    (subscribed : Bool) : o.Fits clientId subscribed := by
  cases o <;> trivial

/-- A command that changes no subscription keeps a client whose receiver is there, and its outputs
address the client if it subscribes. -/
theorem Loop.Moves.fits {env : CommandEnv} {clientId : ℕ} {l l' : Loop} (h : Moves env l l')
    (hgone : env.gone clientId = false) :
    l'.state.subscribers.contains clientId = l.state.subscribers.contains clientId ∧
      ∃ sent, l'.log = sent ++ l.log ∧
        ∀ o ∈ sent, o.Fits clientId (l.state.subscribers.contains clientId) := by
  induction h with
  | quiet _ hlog hsubscribers => exact ⟨by rw [hsubscribers], [], hlog, by simp⟩
  | send l hplain =>
    refine ⟨rfl, [_], rfl, fun o ho => ?_⟩
    rw [mem_singleton.1 ho]
    exact Output.fits_of_isPlain hplain _ _
  | broadcast event l =>
    have hkeep : (l.state.subscribers.filter fun id => !env.gone id).contains clientId =
        l.state.subscribers.contains clientId := by
      rw [Std.ExtTreeSet.contains_filter_eq, hgone, Bool.not_false, Bool.and_true]
    refine ⟨hkeep, [_], rfl, fun o ho => ?_⟩
    rw [mem_singleton.1 ho]
    exact (Std.ExtTreeSet.count_toList _ _).trans (by rw [hkeep])
  | trans _ _ ih ih' =>
    obtain ⟨hkeep, sent, hlog, hsent⟩ := ih
    obtain ⟨hkeep', sent', hlog', hsent'⟩ := ih'
    refine ⟨hkeep'.trans hkeep, sent' ++ sent, by rw [hlog', hlog, append_assoc], fun o ho => ?_⟩
    rcases mem_append.1 ho with hmem | hmem
    · exact hkeep ▸ hsent' o hmem
    · exact hsent o hmem

/-- What a command means for a client that nobody takes off. -/
theorem Loop.processCommand_fits {env : CommandEnv} {clientId : ℕ} {command : SessionCommand}
    (l : Loop) (hgone : env.gone clientId = false)
    (hcommand : command ≠ .removeSubscriber clientId) :
    let subscribed := l.state.subscribers.contains clientId
    let subscribed' := (l.processCommand env command).1.state.subscribers.contains clientId
    ∃ sent, (l.processCommand env command).1.log = sent ++ l.log ∧
      ((subscribed' = subscribed ∧ ∀ o ∈ sent, o.Fits clientId subscribed) ∨
        ∃ later, sent = later ++ [if subscribed' then .trackSessionSubscription clientId
            else .untrackSessionSubscription clientId] ∧
          ∀ o ∈ later, o.Fits clientId subscribed') := by
  intro subscribed subscribed'
  by_cases hsub : command.subscribes = true
  · cases command with
    | attach id =>
      obtain ⟨hsubs, -, replies, hlog, hreplies⟩ := l.handleAttach_sends env id
      have hkeep : subscribed' = (decide (clientId = id) || subscribed) :=
        (congrArg (·.contains clientId) hsubs).trans (Std.ExtTreeSet.contains_insert_eq ..)
      have hfits : ∀ flag, ∀ o ∈ replies, o.Fits clientId flag := by
        intro flag o ho
        obtain ⟨event, rfl⟩ := hreplies o ho
        trivial
      refine ⟨replies ++ [.trackSessionSubscription id], hlog.trans (by simp), ?_⟩
      by_cases hid : clientId = id
      · subst hid
        rw [decide_eq_true rfl, Bool.true_or] at hkeep
        exact Or.inr ⟨replies, by rw [hkeep, if_pos rfl], hfits _⟩
      · rw [decide_eq_false hid, Bool.false_or] at hkeep
        refine Or.inl ⟨hkeep, fun o ho => ?_⟩
        rcases mem_append.1 ho with hmem | hmem
        · exact hfits _ o hmem
        · rw [mem_singleton.1 hmem]
          exact Ne.symm hid
    | detach id =>
      have hkeep : subscribed' = (!decide (clientId = id) && subscribed) :=
        Std.ExtTreeSet.contains_erase_eq ..
      refine ⟨[.untrackSessionSubscription id], rfl, ?_⟩
      by_cases hid : clientId = id
      · subst hid
        rw [decide_eq_true rfl, Bool.not_true, Bool.false_and] at hkeep
        exact Or.inr ⟨[], by rw [hkeep, if_neg Bool.false_ne_true]; rfl, by simp⟩
      · rw [decide_eq_false hid, Bool.not_false, Bool.true_and] at hkeep
        exact Or.inl ⟨hkeep, by simpa [Output.Fits] using Ne.symm hid⟩
    | removeSubscriber id =>
      have hid : clientId ≠ id := fun heq => hcommand (heq ▸ rfl)
      have hkeep : subscribed' = (!decide (clientId = id) && subscribed) :=
        Std.ExtTreeSet.contains_erase_eq ..
      rw [decide_eq_false hid, Bool.not_false, Bool.true_and] at hkeep
      exact ⟨[], rfl, Or.inl ⟨hkeep, by simp⟩⟩
    | _ => cases hsub
  · obtain ⟨hkeep, sent, hlog, hsent⟩ :=
      (l.processCommand_moves env (Bool.eq_false_iff.2 hsub)).fits hgone
    exact ⟨sent, hlog, Or.inl ⟨hkeep, hsent⟩⟩

namespace System

variable {setup : AgentSetup} {label : SystemLabel} {s s' : System} {clientId : ℕ}

def subscribed (clientId : ℕ) (s : System) : Bool := s.loop.state.subscribers.contains clientId

/-- A step of a session leaves a client a subscriber, or none, and its outputs fit that. -/
def Steady (clientId : ℕ) (s s' : System) : Prop :=
  s'.subscribed clientId = s.subscribed clientId ∧
    ∀ o ∈ s.outputsBetween s', o.Fits clientId (s.subscribed clientId)

/-- A step of a session makes a client a subscriber, or none any more, which is the first thing the
daemon hears of it. -/
def Shifts (clientId : ℕ) (s s' : System) : Prop :=
  ∃ outputs, s.outputsBetween s' = (if s'.subscribed clientId
      then Output.trackSessionSubscription clientId
      else .untrackSessionSubscription clientId) :: outputs ∧
    ∀ o ∈ outputs, o.Fits clientId (s'.subscribed clientId)

theorem Steady.of_sent (sent : List Output) (hlog : s'.loop.log = sent ++ s.loop.log)
    (hkeep : s'.subscribed clientId = s.subscribed clientId)
    (hsent : ∀ o ∈ sent, o.Fits clientId (s.subscribed clientId)) : Steady clientId s s' := by
  refine ⟨hkeep, fun o ho => ?_⟩
  rw [outputsBetween_eq hlog, mem_reverse] at ho
  exact hsent o ho

/-- The session thread handles a command. -/
theorem processStep_shifts {env : CommandEnv} {command : SessionCommand}
    {queue : List SessionCommand} (hgone : env.gone clientId = false)
    (hcommand : command ≠ .removeSubscriber clientId) :
    Steady clientId s (s.processStep env command queue) ∨
      Shifts clientId s (s.processStep env command queue) := by
  obtain ⟨sent, hlog, hsent⟩ := s.loop.clearSpawned.processCommand_fits hgone hcommand
  -- the end of the thread is one more output, which fits everybody
  obtain ⟨last, hlast, hlog', hsubscribers⟩ : ∃ last : List Output,
      (∀ flag, ∀ o ∈ last, o.Fits clientId flag) ∧
      (s.processStep env command queue).loop.log = last ++ sent ++ s.loop.log ∧
      (s.processStep env command queue).loop.state.subscribers =
        (s.loop.clearSpawned.processCommand env command).1.state.subscribers := by
    rcases s.processStep_cases env command queue with heq | ⟨-, heq⟩
    · exact ⟨[], by simp, heq ▸ hlog, heq ▸ rfl⟩
    · refine ⟨[.sessionExited], by simp [Output.Fits], ?_, heq ▸ rfl⟩
      rw [heq]
      exact congrArg (Output.sessionExited :: ·) hlog
  have hsubscribed : (s.processStep env command queue).subscribed clientId =
      (s.loop.clearSpawned.processCommand env command).1.state.subscribers.contains clientId :=
    congrArg (·.contains clientId) hsubscribers
  rcases hsent with ⟨hkeep, hsent⟩ | ⟨later, hsplit, hlater⟩
  · refine Or.inl (Steady.of_sent _ hlog' (hsubscribed.trans hkeep) fun o ho => ?_)
    rcases mem_append.1 ho with hmem | hmem
    · exact hlast _ o hmem
    · exact hsent o hmem
  · refine Or.inr ⟨(last ++ later).reverse, ?_, fun o ho => ?_⟩
    · rw [outputsBetween_eq hlog', hsplit, hsubscribed, ← append_assoc, reverse_append]
      rfl
    · rcases mem_append.1 (mem_reverse.1 ho) with hmem | hmem
      · exact hlast _ o hmem
      · exact hsubscribed ▸ hlater o hmem

/-- What every step of a session means for a client that nobody takes off. A thread may only be
started again when the client did not subscribe to the last one. -/
theorem step_shifts (h : s.step setup label = some s')
    (hgone : ∀ env, label = .process env → env.gone clientId = false)
    (hqueue : .removeSubscriber clientId ∉ s.queue)
    (hrestart : label.isRestart = true → s.subscribed clientId = false) :
    Steady clientId s s' ∨ label.isProcess = true ∧ Shifts clientId s s' := by
  rcases step_cases h with ⟨command, rfl, -, -, rfl⟩ | ⟨env, command, queue, rfl, -, hhead, rfl⟩ |
    ⟨wlabel, w, effect, rfl, -, heffect, rfl⟩ | ⟨boot, record, rfl, -, rfl⟩
  · exact Or.inl (Steady.of_sent [] rfl rfl (by simp))
  · refine (processStep_shifts (hgone env rfl) fun heq => hqueue ?_).imp_right fun h => ⟨rfl, h⟩
    rw [hhead, heq]
    exact mem_cons_self
  · refine Or.inl (Steady.of_sent effect.output.toList rfl rfl fun o ho => ?_)
    exact Output.fits_of_isPlain ((Worker.step_serves heffect).2 o (mem_toList.1 ho)) _ _
  · obtain ⟨sent, hlog, hsent⟩ := Loop.sessionMain_sends boot record s.loop.store s.loop.log
    have hnone : s.subscribed clientId = false := hrestart rfl
    refine Or.inl (Steady.of_sent sent hlog ?_ fun o ho => ?_)
    · rw [hnone]
      simp only [subscribed, Loop.subscribers_sessionMain, Std.ExtTreeSet.contains_empty]
    · rw [hnone]
      rcases hsent o ho with hplain | ⟨event, rfl⟩
      · exact Output.fits_of_isPlain hplain _ _
      · exact count_nil

/-- A client is taken off only by a command from outside. -/
theorem not_mem_queue_of_step (hs : s.Invariant) (h : s.step setup label = some s')
    (hqueue : .removeSubscriber clientId ∉ s.queue) (hlabel : label ≠ .send (.removeSubscriber clientId)) :
    .removeSubscriber clientId ∉ s'.queue := by
  rcases step_cases h with ⟨command, rfl, -, -, rfl⟩ | ⟨env, command, queue, rfl, -, hhead, rfl⟩ |
    ⟨wlabel, w, effect, rfl, hw, heffect, rfl⟩ | ⟨boot, record, rfl, -, rfl⟩
  · intro hmem
    rcases mem_append.1 hmem with hmem | hmem
    · exact hqueue hmem
    · exact hlabel (congrArg SystemLabel.send (mem_singleton.1 hmem).symm)
  · rw [hhead, mem_cons, not_or] at hqueue
    rcases s.processStep_cases env command queue with heq | ⟨-, heq⟩
    · rw [heq]
      exact hqueue.2
    · rw [heq]
      exact not_mem_nil
  · simp only [workStep, hs.live_of_worker hw, if_true, mem_append, mem_toList]
    rintro (hmem | hmem)
    · exact hqueue hmem
    · have hdetaches : SessionCommand.detaches clientId (.removeSubscriber clientId) = false :=
        detaches_of_work hs hw heffect hmem
      simp [SessionCommand.detaches] at hdetaches
  · exact not_mem_nil

end System

end Choreo
