import Choreo.Session.Config

/-!
# The account and the provider of a session

A session keeps the name of its account and, next to it, the provider that the daemon resolved for
an account at some time. Two commands ask the daemon: `SetAccount` always, and `RunInput` when no
provider is cached. All others leave both alone.
-/

namespace Choreo

namespace Loop

/-- The account and the cached provider. -/
def route (l : Loop) : Option String × Option InferenceProvider :=
  (l.state.config.accountName, l.state.provider)

/-- The account that the handler of a command asks the daemon about, if it asks. -/
def asks (l : Loop) : SessionCommand → Option String
  | .runInput _ input =>
    if trim input = "" then none
    else
      match l.state.provider with
      | some _ => none
      | none => l.state.config.accountName
  | .setAccount name => some name
  | _ => none

theorem asks_congr {l l' : Loop} (h : l'.state = l.state) (command : SessionCommand) :
    l'.asks command = l.asks command := by
  unfold asks
  rw [h]

theorem route_of_settings {l l' : Loop} (h : l'.settings = l.settings) : l'.route = l.route := by
  have haccount := congrArg (fun p => p.1.accountName) h
  have hprovider := congrArg Prod.snd h
  exact Prod.ext haccount hprovider

theorem route_sessionMain (boot : BootEnv) (record : SessionRecord) (store : Store)
    (log : List Output) :
    (sessionMain boot record store log).route = (record.accountName, boot.provider) := by
  unfold sessionMain SessionState.loadTurns
  dsimp only
  split_ifs
  · rw [SessionState.foldl_loadTurn]
    rfl
  · rfl

variable (env : CommandEnv)

theorem route_resolveContextWindowIfMissing (l : Loop) :
    (l.resolveContextWindowIfMissing env).route = l.route := by
  unfold resolveContextWindowIfMissing
  split
  · split <;> rfl
  · rfl

theorem route_announceContextWindow (cw : Option UInt32) (l : Loop) :
    (l.announceContextWindow env cw).route = l.route := by
  cases cw <;> rfl

theorem route_inputProvider {env : CommandEnv} {l l₁ : Loop} {provider : InferenceProvider}
    (h : l.inputProvider env = .ok (provider, l₁)) :
    (l.state.provider.isSome = true ∧ l₁ = l) ∨
      ∃ name, l.route = (some name, none) ∧ env.resolveProvider name = some provider ∧
        l₁.route = (some name, some provider) := by
  unfold inputProvider at h
  split at h
  · next hcached =>
    cases h
    exact Or.inl ⟨by rw [hcached]; rfl, rfl⟩
  · next name hnone haccount =>
    split at h
    · next answer hanswer =>
      cases h
      refine Or.inr ⟨name, Prod.ext haccount hnone, hanswer, ?_⟩
      rw [route_resolveContextWindowIfMissing]
      exact Prod.ext haccount rfl
    · cases h
  · cases h

theorem inputProvider_error {env : CommandEnv} {l : Loop} {error : String}
    (h : l.inputProvider env = .error error) :
    l.state.provider = none ∧
      ∀ name, l.state.config.accountName = some name → env.resolveProvider name = none := by
  unfold inputProvider at h
  split at h
  · cases h
  · next name hnone haccount =>
    split at h
    · cases h
    · next hanswer =>
      refine ⟨hnone, fun name' haccount' => ?_⟩
      rw [haccount] at haccount'
      cases haccount'
      exact hanswer
  · next hnone haccount =>
    refine ⟨hnone, fun name haccount' => ?_⟩
    rw [haccount] at haccount'
    cases haccount'

theorem route_handleRunInput (requestId : ℕ) (input : String) (l : Loop) :
    (l.handleRunInput env requestId input).1.route =
      match l.asks (.runInput requestId input) with
      | none => l.route
      | some name => (some name, (env.resolveProvider name).or l.state.provider) := by
  unfold handleRunInput asks
  dsimp only
  split
  · rfl
  · split
    · next error herror =>
      obtain ⟨hnone, hanswer⟩ := inputProvider_error herror
      rw [hnone]
      dsimp only
      split
      · rfl
      · next name haccount =>
        rw [hanswer name haccount]
        exact Prod.ext haccount hnone
    · next provider l₁ hok =>
      refine Eq.trans (b := l₁.route) ?_ ?_
      · split
        · rfl
        · split_ifs <;> rfl
      · rcases route_inputProvider hok with ⟨hcached, rfl⟩ | ⟨name, hroute, hanswer, hl₁⟩
        · obtain ⟨cached, hcached⟩ := Option.isSome_iff_exists.1 hcached
          rw [hcached]
        · have haccount : l.state.config.accountName = some name := congrArg Prod.fst hroute
          have hnone : l.state.provider = none := congrArg Prod.snd hroute
          rw [hl₁, hnone, haccount]
          dsimp only
          rw [hanswer]
          rfl

theorem route_handleSetAccount (name : String) (l : Loop) :
    (l.handleSetAccount env name).1.route =
      (some name, (env.resolveProvider name).or l.state.provider) := by
  unfold handleSetAccount
  dsimp only
  split
  · next hnone =>
    rw [hnone]
    rfl
  · next provider hanswer =>
    rw [hanswer]
    rfl

theorem route_of_isConfig {command : SessionCommand}
    (hconfig : command.isConfig = true) (haccount : ∀ name, command ≠ .setAccount name)
    (l : Loop) : (l.processCommand env command).1.route = l.route := by
  cases command with
  | setModel model =>
    refine Prod.ext ?_ (provider_handleSetModel env model l)
    simp only [processCommand, handleSetModel]
    split
    · rfl
    · have hselect : (l.selectModel env model).route = l.route :=
        route_announceContextWindow env _ _
      refine Eq.trans ?_ (congrArg Prod.fst hselect)
      simp only [resetReasoningEffort]
      split
      · split_ifs <;> rfl
      · rfl
  | setAccount name => exact absurd rfl (haccount name)
  | setTitle title =>
    simp only [processCommand, handleSetTitle]
    split_ifs <;> rfl
  | setWorkingDir path reply => rfl
  | loadTools groups reply =>
    simp only [processCommand, handleLoadTools, changeToolGroups]
    split <;> rfl
  | unloadTools groups reply =>
    simp only [processCommand, handleUnloadTools, changeToolGroups]
    split <;> rfl
  | setReasoningEffort effort =>
    simp only [processCommand, handleSetReasoningEffort]
    split_ifs <;> rfl
  | _ => cases hconfig

/-- The effect of every command on the account and the provider: a command that asks the daemon
sets the account, and the provider if the daemon has one. -/
theorem processCommand_route (command : SessionCommand) (l : Loop) :
    (l.processCommand env command).1.route =
      match l.asks command with
      | none => l.route
      | some name => (some name, (env.resolveProvider name).or l.state.provider) := by
  cases hconfig : command.isConfig with
  | false =>
    cases command with
    | runInput requestId input => exact route_handleRunInput env requestId input l
    | requestFinished requestId snapshot =>
      refine Prod.ext ?_ (provider_handleRequestFinished env requestId snapshot l)
      have huser := userConfig_handleRequestFinished env requestId snapshot l
      exact congrArg UserConfig.accountName huser
    | setAccount name => cases hconfig
    | _ =>
      exact route_of_settings
        (processCommand_settings_of_ne_runInput env hconfig rfl (fun _ _ h => by cases h) l)
  | true =>
    cases command with
    | setAccount name => exact route_handleSetAccount env name l
    | runInput requestId input => cases hconfig
    | _ => exact route_of_isConfig env hconfig (fun _ h => by cases h) l

/-- An accepted request uses the provider that is cached afterwards. -/
theorem provider_of_spawned {env : CommandEnv} {command : SessionCommand} {l : Loop}
    {args : WorkerArgs} (hnone : l.spawned = none)
    (h : (l.processCommand env command).1.spawned = some args) :
    (l.processCommand env command).1.state.provider = some args.client := by
  have hreq := processCommand_requests env command l
  have hsame : ∀ {r : Std.ExtTreeMap ℕ ActiveRequest × Option WorkerArgs × Bool},
      (l.processCommand env command).1.requests = r → r.2.1 = l.spawned →
      (l.processCommand env command).1.state.provider = some args.client := by
    intro r hr hspawned
    have hcontra : some args = none := by
      rw [← h, ← hnone, ← hspawned]
      exact congrArg (fun r => r.2.1) hr
    cases hcontra
  have haccepts : ∀ {requestId : ℕ} {args' : WorkerArgs},
      Accepts l requestId args' (l.processCommand env command).1 →
      (l.processCommand env command).1.state.provider = some args.client := by
    intro requestId args' hacc
    have hargs : some args' = some args := hacc.spawned.symm.trans h
    cases hargs
    exact hacc.cached
  cases command with
  | runInput requestId input => exact hreq.elim (fun h => hsame h rfl) fun ⟨_, h⟩ => haccepts h
  | runChildInput requestId userText reply =>
    exact hreq.elim (fun h => hsame h rfl) fun ⟨_, h⟩ => haccepts h
  | cancel requestId | shutdown => exact hsame rfl hreq.2
  | requestFinished requestId snapshot | _ => exact hsame hreq rfl

end Loop

namespace System

theorem processStep_route (env : CommandEnv) (command : SessionCommand)
    (queue : List SessionCommand) (s : System) :
    (s.processStep env command queue).loop.route =
      match s.loop.asks command with
      | none => s.loop.route
      | some name => (some name, (env.resolveProvider name).or s.loop.state.provider) := by
  have hroute := Loop.processCommand_route env command s.loop.clearSpawned
  rcases s.processStep_cases env command queue with heq | ⟨-, heq⟩
  · rw [heq]
    exact hroute
  · rw [heq]
    exact hroute

theorem processStep_provider_of_spawned {env : CommandEnv} {command : SessionCommand}
    {queue : List SessionCommand} {s : System} {args : WorkerArgs}
    (h : (s.processStep env command queue).loop.spawned = some args) :
    (s.processStep env command queue).loop.state.provider = some args.client := by
  rcases s.processStep_cases env command queue with heq | ⟨-, heq⟩
  · rw [heq] at h ⊢
    exact Loop.provider_of_spawned s.loop.clearSpawned_spawned h
  · rw [heq] at h ⊢
    exact Loop.provider_of_spawned s.loop.clearSpawned_spawned h

end System

end Choreo
