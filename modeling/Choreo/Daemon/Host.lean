import Choreo.Daemon.Keystore
import Choreo.Session.Route

/-!
# The daemon and its session threads

The daemon's command loop and the session threads run side by side. The daemon starts a session
thread for a new session, or when a client attaches to a stored one, and hands it the provider that
it holds for the session's account. A session thread that needs a provider later asks the daemon and
waits for the answer; the daemon may handle other commands before the session thread reads it.
-/

namespace Choreo

open List Option

/-- What a client asks for in a new session. -/
structure NewSession where
  title : Option String := none
  parentSessionId : Option ℕ := none
  workingDir : Option PathBuf := none
  reasoningEffort : Option String := none
  selectedModel : Option String := none
  contextConfig : Option ContextConfig := none
  accountName : Option String := none
  activeToolGroups : List String := []

def NewSession.record (now : ℤ) (session : NewSession) : SessionRecord where
  title := session.title
  selectedModel := session.selectedModel
  reasoningEffort := session.reasoningEffort
  parentSessionId := session.parentSessionId
  workingDir := session.workingDir.map PathBuf.display
  turnCount := 0
  createdAt := now
  lastModified := now
  activeToolGroups :=
    if session.activeToolGroups = [] then ["core", "git", "shell"] else session.activeToolGroups
  contextConfig := session.contextConfig.getD {}
  accountName := session.accountName
  lastResponseId := none
  lastResponseIdProducer := none

/-- A session, and the answer of the daemon that its thread has not read yet. -/
structure SessionThread where
  system : System
  answer : Option (Option InferenceProvider) := none

namespace SessionThread

/-- The account that the session thread waits for an answer about. -/
def asking (t : SessionThread) : Option String :=
  match t.system.live, t.system.queue with
  | true, command :: _ => t.system.loop.asks command
  | _, _ => none

/-- One step of a session under the daemon. A command that asks the daemon is handled only when the
answer is there. The daemon alone starts session threads. -/
def step (setup : AgentSetup) (label : SystemLabel) (t : SessionThread) : Option SessionThread :=
  match label with
  | .restart _ => none
  | .process env =>
    match t.asking, t.answer with
    | some _, none => none
    | _, answer =>
      (t.system.step setup (.process { env with resolveProvider := fun _ => answer.join })).map
        fun system => { system := system }
  | label => (t.system.step setup label).map fun system => { t with system := system }

/-- A step of a session thread other than the handling of a command keeps the account, the provider
and what it waits for. -/
theorem step_of_not_process {setup : AgentSetup} {label : SystemLabel} {t t' : SessionThread}
    (hlabel : label.isProcess = false) (h : t.step setup label = some t') :
    t'.system.live = t.system.live ∧ t'.system.loop.route = t.system.loop.route ∧
      t'.answer = t.answer ∧ ∀ name, t.asking = some name → t'.asking = some name := by
  have hkeep : ∀ (more : List SessionCommand) {s : System}, s.live = t.system.live →
      s.queue = t.system.queue ++ more → s.loop.state = t.system.loop.state →
      ∀ name, t.asking = some name → (SessionThread.mk s t.answer).asking = some name := by
    intro more s hlive hqueue hstate name hasking
    unfold asking at hasking ⊢
    split at hasking
    · next command queue htrue hcons =>
      simp only [hlive, hqueue, htrue, hcons, cons_append]
      rw [Loop.asks_congr hstate, hasking]
    · cases hasking
  cases label with
  | restart boot => cases h
  | process env => cases hlabel
  | send command =>
    obtain ⟨system, hstep, rfl⟩ := map_eq_some_iff.1 h
    rcases System.step_cases hstep with ⟨command', hlabel, -, -, rfl⟩ | ⟨_, _, _, hlabel, -⟩ |
      ⟨_, _, _, hlabel, -⟩ | ⟨_, _, hlabel, -⟩ <;> cases hlabel
    exact ⟨rfl, rfl, rfl, hkeep _ rfl rfl rfl⟩
  | work label =>
    obtain ⟨system, hstep, rfl⟩ := map_eq_some_iff.1 h
    rcases System.step_cases hstep with ⟨_, hlabel, -⟩ | ⟨_, _, _, hlabel, -⟩ |
      ⟨label', w, effect, hlabel, -, -, rfl⟩ | ⟨_, _, hlabel, -⟩ <;> cases hlabel
    refine ⟨rfl, rfl, rfl, ?_⟩
    cases hlive : t.system.live with
    | true =>
      refine hkeep effect.command.toList rfl ?_ rfl
      simp only [System.workStep, hlive, if_true]
    | false =>
      intro name hasking
      simp only [asking, hlive] at hasking
      cases hasking

/-- The handling of a command: the account and the provider change only by the daemon's answer, and
an accepted request uses the provider that is cached afterwards. -/
theorem step_process {setup : AgentSetup} {env : CommandEnv} {t t' : SessionThread}
    (h : t.step setup (.process env) = some t') :
    t.system.live = true ∧ t'.answer = none ∧
      t'.system.loop.route =
        (match t.asking with
        | none => t.system.loop.route
        | some name => (some name, t.answer.join.or t.system.loop.state.provider)) ∧
      ∀ args, t'.system.loop.spawned = some args →
        t'.system.loop.state.provider = some args.client := by
  simp only [step] at h
  split at h
  · cases h
  · obtain ⟨system, hstep, rfl⟩ := map_eq_some_iff.1 h
    rcases System.step_cases hstep with ⟨_, hlabel, -⟩ | ⟨env', command, queue, hlabel, hlive,
      hqueue, rfl⟩ | ⟨_, _, _, hlabel, -⟩ | ⟨_, _, hlabel, -⟩ <;> cases hlabel
    refine ⟨hlive, rfl, ?_, fun args => System.processStep_provider_of_spawned⟩
    have hasking : t.asking = t.system.loop.asks command := by
      simp only [asking, hlive, hqueue]
    rw [hasking]
    exact System.processStep_route _ command queue t.system

def holdsProvider (t : SessionThread) : Bool :=
  t.system.live && (t.system.loop.state.provider.isSome || t.answer.join.isSome)

end SessionThread

/-- The daemon, its sessions and the id of the next one. -/
structure Host where
  daemon : DaemonState
  sessions : Std.ExtTreeMap ℕ SessionThread := ∅
  nextSessionId : ℕ := 1

/-- The steps of the daemon and its sessions: the daemon handles a command, creates a session,
attaches to a stored one or answers a session thread; a session makes a step; or the process dies
and is started again. -/
inductive HostLabel
  | daemon (env : DaemonEnv) (command : DaemonCommand)
  | create (catalog : Catalog) (readOk writeOk : Bool) (now : ℤ) (session : NewSession)
  | attach (catalog : Catalog) (readOk : Bool) (sessionId : ℕ)
  | answer (sessionId : ℕ)
  | session (sessionId : ℕ) (label : SystemLabel)
  | reboot (env : DaemonEnv)

namespace Host

def init (env : DaemonEnv) (binding : Option Bytes) (blobs : Std.ExtTreeMap String Bytes)
    (stores : Std.ExtTreeMap ℕ Store) : Host where
  daemon := DaemonState.boot env binding blobs
  sessions := stores.map fun _ store => { system := System.init store }
  nextSessionId :=
    match (stores.filter fun _ store => store.record.isSome).keys.max? with
    | some last => last + 1
    | none => 1

def startProvider (h : Host) (record : SessionRecord) : Option InferenceProvider :=
  record.accountName.bind fun name => h.daemon.providers[name]?

/-- Replaces the thread of a session. -/
def setThread (sessionId : ℕ) (t : SessionThread) (h : Host) : Host :=
  { h with sessions := h.sessions.insert sessionId t }

def createSession (catalog : Catalog) (readOk writeOk : Bool) (now : ℤ) (session : NewSession)
    (h : Host) : Host :=
  let record := session.record now
  let boot : BootEnv :=
    { catalog := catalog, provider := h.startProvider record, readOk := readOk }
  let store : Store := { record := if writeOk then some record else none }
  let loop := Loop.sessionMain boot record store []
  { h.setThread h.nextSessionId { system := { live := true, loop := loop } } with
    nextSessionId := h.nextSessionId + 1 }

def attachSession (setup : AgentSetup) (catalog : Catalog) (readOk : Bool) (sessionId : ℕ)
    (h : Host) : Option Host :=
  match h.sessions[sessionId]? with
  | none => none
  | some t =>
    if t.system.live then none
    else
      match t.system.loop.store.record with
      | none => none
      | some record =>
        let boot : BootEnv :=
          { catalog := catalog, provider := h.startProvider record, readOk := readOk }
        (t.system.step setup (.restart boot)).map fun system =>
          h.setThread sessionId { system := system }

def resolveProvider (sessionId : ℕ) (h : Host) : Option Host :=
  match h.sessions[sessionId]? with
  | none => none
  | some t =>
    match t.asking, t.answer with
    | some name, none =>
      some (h.setThread sessionId { t with answer := some h.daemon.providers[name]? })
    | _, _ => none

def step (setup : AgentSetup) (label : HostLabel) (h : Host) : Option Host :=
  match label with
  | .daemon env command => some { h with daemon := (h.daemon.handleCommand env command).1 }
  | .create catalog readOk writeOk now session =>
    some (h.createSession catalog readOk writeOk now session)
  | .attach catalog readOk sessionId => h.attachSession setup catalog readOk sessionId
  | .answer sessionId => h.resolveProvider sessionId
  | .session sessionId label =>
    match h.sessions[sessionId]? with
    | none => none
    | some t => (t.step setup label).map fun t => h.setThread sessionId t
  | .reboot env =>
    some (init env h.daemon.binding h.daemon.blobs
      (h.sessions.map fun _ t => t.system.loop.store))

/-! ### What a step changes -/

section Steps

variable {setup : AgentSetup} {label : HostLabel} {h h' : Host}

theorem get_setThread (sessionId id : ℕ) (t : SessionThread) (h : Host) :
    (h.setThread sessionId t).sessions[id]? = if id = sessionId then some t else h.sessions[id]? :=
  Std.ExtTreeMap.get_insert h.sessions sessionId id t

/-- A thread that the daemon starts has the account of its record and the provider that the daemon
holds for it. -/
structure Started (d : DaemonState) (t : SessionThread) : Prop where
  answer : t.answer = none
  route : t.system.loop.route =
    (t.system.loop.state.config.accountName,
      t.system.loop.state.config.accountName.bind fun name => d.providers[name]?)

theorem started_sessionMain (h : Host) (catalog : Catalog) (readOk : Bool) (record : SessionRecord)
    (store : Store) (log : List Output) :
    Started h.daemon
      { system :=
          { live := true
            loop := Loop.sessionMain
              { catalog := catalog, provider := h.startProvider record, readOk := readOk }
              record store log } } := by
  have hroute := Loop.route_sessionMain
    { catalog := catalog, provider := h.startProvider record, readOk := readOk } record store log
  have haccount : (Loop.sessionMain
      { catalog := catalog, provider := h.startProvider record, readOk := readOk }
      record store log).state.config.accountName = record.accountName := congrArg Prod.fst hroute
  refine ⟨rfl, ?_⟩
  dsimp only
  rw [hroute, haccount]
  rfl

/-- The daemon's own state changes by its commands and when the process starts again. -/
theorem step_daemon (hstep : step setup label h = some h') :
    h'.daemon = h.daemon ∨
    (∃ env command, label = .daemon env command ∧
      h' = { h with daemon := (h.daemon.handleCommand env command).1 }) ∨
    ∃ env, label = .reboot env ∧
      h' = init env h.daemon.binding h.daemon.blobs
        (h.sessions.map fun _ t => t.system.loop.store) := by
  cases label with
  | daemon env command =>
    cases hstep
    exact Or.inr (Or.inl ⟨env, command, rfl, rfl⟩)
  | create catalog readOk writeOk now session =>
    cases hstep
    exact Or.inl rfl
  | attach catalog readOk sessionId =>
    simp only [step, attachSession] at hstep
    split at hstep
    · cases hstep
    · split_ifs at hstep
      split at hstep
      · cases hstep
      · obtain ⟨system, -, rfl⟩ := map_eq_some_iff.1 hstep
        exact Or.inl rfl
  | answer sessionId =>
    simp only [step, resolveProvider] at hstep
    split at hstep
    · cases hstep
    · split at hstep
      · cases hstep
        exact Or.inl rfl
      · cases hstep
  | session sessionId slabel =>
    simp only [step] at hstep
    split at hstep
    · cases hstep
    · obtain ⟨t, -, rfl⟩ := map_eq_some_iff.1 hstep
      exact Or.inl rfl
  | reboot env =>
    cases hstep
    exact Or.inr (Or.inr ⟨env, rfl, rfl⟩)

/-- Where a thread comes from: it was there before, the daemon started or answered it, it made a
step, or it was lost when the process died. -/
theorem thread_cases (hstep : step setup label h = some h') {id : ℕ} {t' : SessionThread}
    (ht' : h'.sessions[id]? = some t') :
    (h.sessions[id]? = some t' ∧ (h'.daemon = h.daemon ∨
      ∃ env command, label = .daemon env command ∧
        h'.daemon = (h.daemon.handleCommand env command).1)) ∨
    (h'.daemon = h.daemon ∧ Started h.daemon t') ∨
    (h'.daemon = h.daemon ∧ ∃ t name, h.sessions[id]? = some t ∧ t.asking = some name ∧
      t' = { t with answer := some h.daemon.providers[name]? }) ∨
    (h'.daemon = h.daemon ∧ ∃ t slabel, label = .session id slabel ∧ h.sessions[id]? = some t ∧
      t.step setup slabel = some t') ∨
    (t'.system.live = false ∧ t'.answer = none) := by
  cases label with
  | daemon env command =>
    cases hstep
    exact Or.inl ⟨ht', Or.inr ⟨env, command, rfl, rfl⟩⟩
  | create catalog readOk writeOk now session =>
    cases hstep
    change (h.setThread h.nextSessionId _).sessions[id]? = some t' at ht'
    rw [get_setThread] at ht'
    by_cases hid : id = h.nextSessionId
    · rw [if_pos hid] at ht'
      cases ht'
      exact Or.inr (Or.inl ⟨rfl, started_sessionMain h _ _ _ _ _⟩)
    · rw [if_neg hid] at ht'
      exact Or.inl ⟨ht', Or.inl rfl⟩
  | attach catalog readOk sessionId =>
    simp only [step, attachSession] at hstep
    split at hstep
    · cases hstep
    · next t ht =>
      split_ifs at hstep
      split at hstep
      · cases hstep
      · next record hrecord =>
        simp only [System.step, hrecord] at hstep
        cases hstep
        rw [get_setThread] at ht'
        split_ifs at ht' with hid
        · cases ht'
          exact Or.inr (Or.inl ⟨rfl, started_sessionMain h _ _ _ _ _⟩)
        · exact Or.inl ⟨ht', Or.inl rfl⟩
  | answer sessionId =>
    simp only [step, resolveProvider] at hstep
    split at hstep
    · cases hstep
    · next t ht =>
      split at hstep
      · next name hasking _ =>
        cases hstep
        rw [get_setThread] at ht'
        split_ifs at ht' with hid
        · cases ht'
          cases hid
          exact Or.inr (Or.inr (Or.inl ⟨rfl, t, name, ht, hasking, rfl⟩))
        · exact Or.inl ⟨ht', Or.inl rfl⟩
      · cases hstep
  | session sessionId slabel =>
    simp only [step] at hstep
    split at hstep
    · cases hstep
    · next t ht =>
      obtain ⟨t₁, ht₁, rfl⟩ := map_eq_some_iff.1 hstep
      rw [get_setThread] at ht'
      split_ifs at ht' with hid
      · cases ht'
        cases hid
        exact Or.inr (Or.inr (Or.inr (Or.inl ⟨rfl, t, slabel, rfl, ht, ht₁⟩)))
      · exact Or.inl ⟨ht', Or.inl rfl⟩
  | reboot env =>
    cases hstep
    simp only [init, Std.ExtTreeMap.getElem?_map] at ht'
    obtain ⟨store, -, rfl⟩ := map_eq_some_iff.1 ht'
    exact Or.inr (Or.inr (Or.inr (Or.inr ⟨rfl, rfl⟩)))

end Steps

end Host

/-! ### A small daemon

Values for runs on concrete inputs: two accounts, one of which has a credential, and a cipher that
puts the key in front. -/

namespace Sample

def key : Bytes := List.replicate 32 7

def daemonEnv : DaemonEnv where
  catalog := catalog
  connect _ := none
  publicKey key :=
    if h : key.length = 32 then ⟨key.reverse, by rw [length_reverse, h]⟩
    else ⟨List.replicate 32 0, rfl⟩
  decryptWithPrivateKey key blob :=
    if blob.take 32 = key then .ok (blob.drop 32) else .error "wrong key"
  decodeCredential plaintext :=
    if plaintext = [] then .error "empty" else .ok (.apiKey "key")
  accountsConfigPath := .ok (.utf8 "accounts.toml")
  readAccountsFile _ :=
    .ok [{ name := "work", provider := "local" }, { name := "home", provider := "local" }]

/-- The daemon with one stored session, on the account that has a credential. -/
def host : Host :=
  Host.init daemonEnv (some key.reverse) (Std.ExtTreeMap.ofList [("work", key ++ [1])])
    (Std.ExtTreeMap.ofList [(1, oneTurn)])

/-- The daemon is unlocked, and the session is started. -/
def unlockAndAttach : List HostLabel :=
  [.daemon daemonEnv (.unlock key), .attach catalog true 1]

end Sample

end Choreo
