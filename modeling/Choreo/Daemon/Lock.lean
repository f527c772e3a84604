import Choreo.Daemon.Host

/-!
# Requests after a lock

A lock drops the credentials and the providers of the daemon, but it does not reach the session
threads: a provider that one of them has cached, or that is on the way to it, stays in use. Further,
an unlock that fails when the accounts are loaded leaves the credentials in memory, and accounts
that are added or changed then get providers although the daemon is locked. Apart from this, no
session accepts a request while the daemon is locked.
-/

namespace Choreo

open List Option

/-- Whether the last part of an unlock fails: the credentials or the accounts cannot be read. -/
def DaemonEnv.unlockFails (env : DaemonEnv) : Bool :=
  env.readBlobs.isSome ||
    match env.accountsConfigPath with
    | .error _ => true
    | .ok path =>
      match AccountManager.load env path with
      | .error _ => true
      | .ok _ => false

/-- Outputs that tell of a successful unlock. -/
def DaemonOutput.isUnlock : DaemonOutput → Bool
  | .unlocked | .bound => true
  | _ => false

namespace DaemonState

variable (env : DaemonEnv)

/-- The commands that can build providers of a locked daemon: a credential for an account is saved
and the unlock that follows fails, or an account is added or changed whose credential stayed in
memory. -/
def buildsWhileLocked (command : DaemonCommand) (d : DaemonState) : Bool :=
  d.locked &&
    match command with
    | .saveCredential service _ _ => d.accounts.accounts.contains service && env.unlockFails
    | .addAccount config => (d.apiKeyFor config.name).isSome
    | .accountsReload => d.accounts.allConfigs.any fun config => (d.apiKeyFor config.name).isSome
    | _ => false

theorem unlockTail_cases (key : Bytes) (d : DaemonState) :
    ((d.unlockTail env key).1.locked = false ∧ (d.unlockTail env key).2 = .ok () ∧
      env.unlockFails = false) ∨
    ((d.unlockTail env key).1.locked = d.locked ∧
      (d.unlockTail env key).1.providers = d.providers ∧
      (∃ e, (d.unlockTail env key).2 = .error e) ∧ env.unlockFails = true) := by
  unfold unlockTail DaemonEnv.unlockFails
  cases env.readBlobs with
  | some e => exact Or.inr ⟨rfl, rfl, ⟨_, rfl⟩, rfl⟩
  | none =>
    cases env.accountsConfigPath with
    | error e => exact Or.inr ⟨rfl, rfl, ⟨_, rfl⟩, rfl⟩
    | ok path =>
      dsimp only
      cases AccountManager.load env path with
      | error e => exact Or.inr ⟨rfl, rfl, ⟨_, rfl⟩, rfl⟩
      | ok accounts => exact Or.inl ⟨rfl, rfl, rfl⟩

theorem resolveAccountProvider_none (name : String) (d : DaemonState) :
    d.resolveAccountProvider env name none = d := by
  unfold resolveAccountProvider
  split
  · rfl
  · split
    · rfl
    · next provider hok => cases InferenceProvider.fromAccountConfig_apiKey hok

theorem resolveAccountProvider_of_not_contains {env : DaemonEnv} {name : String}
    {apiKey : Option String} {d : DaemonState} (h : d.accounts.accounts.contains name = false) :
    d.resolveAccountProvider env name apiKey = d := by
  unfold resolveAccountProvider
  rw [Std.ExtTreeMap.getElem?_eq_none_of_contains_eq_false h]

theorem resolveAccountProvider_locked (name : String) (apiKey : Option String)
    (d : DaemonState) : (d.resolveAccountProvider env name apiKey).locked = d.locked := by
  unfold resolveAccountProvider
  split
  · rfl
  · split <;> rfl

/-- What a command other than a lock may do: it unlocks the daemon and says so, or it leaves the lock
as it is, and the daemon without providers unless it builds some while locked. -/
def KeepsLock (builds : Bool) (d : DaemonState) (r : DaemonState × List DaemonOutput) : Prop :=
  (r.1.locked = false ∧ r.2.any DaemonOutput.isUnlock = true) ∨
    (r.1.locked = d.locked ∧
      (d.locked = true → d.providers = ∅ → builds = false → r.1.providers = ∅))

theorem keepsLock_of_eq {builds : Bool} {d d' : DaemonState} {outputs : List DaemonOutput}
    (hlocked : d'.locked = d.locked) (hproviders : d'.providers = d.providers) :
    KeepsLock builds d (d', outputs) :=
  Or.inr ⟨hlocked, fun _ h _ => hproviders.trans h⟩

theorem keepsLock_announceUnlock {success : DaemonOutput} (hsuccess : success.isUnlock = true)
    (wasLocked : Bool) {env : DaemonEnv} {key : Bytes} {builds : Bool} {d d' : DaemonState}
    (hlocked : d'.locked = d.locked) (hproviders : d'.providers = d.providers) :
    KeepsLock builds d (announceUnlock success wasLocked (asKeystoreResult (d'.unlockTail env key))) := by
  rcases d'.unlockTail_cases env key with ⟨hopen, hok, -⟩ | ⟨hsame, hprov, ⟨e, herror⟩, -⟩
  · left
    simp only [asKeystoreResult, hok, Except.mapError, announceUnlock, any_cons, hsuccess,
      Bool.true_or, and_true]
    exact hopen
  · simp only [asKeystoreResult, herror, Except.mapError, announceUnlock]
    exact keepsLock_of_eq (hsame.trans hlocked) (hprov.trans hproviders)

theorem handleUnlock_keepsLock (privateKey : Bytes) (builds : Bool)
    (d : DaemonState) : KeepsLock builds d (d.handleUnlock env privateKey) := by
  have herror : ∀ e : KeystoreOpError,
      KeepsLock builds d (announceUnlock .unlocked d.locked (d, .error e)) := by
    intro e
    cases e <;> exact keepsLock_of_eq rfl rfl
  unfold handleUnlock handleUnlockInner
  split
  · exact herror _
  · split
    · exact herror _
    · exact keepsLock_announceUnlock rfl _ rfl rfl

theorem bindKeystore_same (key : Bytes) (d : DaemonState) :
    (d.bindKeystore env key).1.locked = d.locked ∧
      (d.bindKeystore env key).1.providers = d.providers := by
  unfold bindKeystore
  split
  · exact ⟨rfl, rfl⟩
  · split
    · split <;> exact ⟨rfl, rfl⟩
    · split_ifs <;> exact ⟨rfl, rfl⟩

theorem handleBindKeystore_keepsLock (key : Bytes) (builds : Bool)
    (d : DaemonState) : KeepsLock builds d (d.handleBindKeystore env key) := by
  have herror : ∀ (d' : DaemonState) (e : KeystoreOpError), d'.locked = d.locked →
      d'.providers = d.providers →
      KeepsLock builds d (announceUnlock .bound d.locked (d', .error e)) := by
    intro d' e hlocked hproviders
    cases e <;> exact keepsLock_of_eq hlocked hproviders
  unfold handleBindKeystore handleBindKeystoreInner
  split
  · exact herror d _ rfl rfl
  · next key _ =>
    have hsame := d.bindKeystore_same env key
    split
    · next d' e hbind =>
      rw [hbind] at hsame
      exact herror d' e hsame.1 hsame.2
    · next d' hbind =>
      rw [hbind] at hsame
      exact keepsLock_announceUnlock rfl _ hsame.1 hsame.2

variable (service : String)

theorem takeSaved_same (credential : ServiceCredential)
    (d : DaemonState) :
    (d.takeSaved env service credential).locked = d.locked ∧
      (d.accounts.accounts.contains service = false →
        (d.takeSaved env service credential).providers = d.providers) := by
  unfold takeSaved
  dsimp only
  split
  · refine ⟨?_, fun hno => ?_⟩
    · rw [resolveAccountProvider_locked]
      split_ifs <;> rfl
    · rw [resolveAccountProvider_of_not_contains]
      · split_ifs <;> rfl
      · split_ifs <;> exact hno
  · constructor
    · split_ifs <;> rfl
    · intro _
      split_ifs <;> rfl

theorem handleSaveCredential_keepsLock
    (encryptedBlob unlockKey : Bytes) (d : DaemonState) :
    KeepsLock (d.buildsWhileLocked env (.saveCredential service encryptedBlob unlockKey)) d
      (d.handleSaveCredential env service encryptedBlob unlockKey) := by
  unfold handleSaveCredential
  dsimp only
  split_ifs
  · exact keepsLock_of_eq rfl rfl
  split
  · exact keepsLock_of_eq rfl rfl
  · exact keepsLock_of_eq rfl rfl
  split
  · exact keepsLock_of_eq rfl rfl
  split
  · exact keepsLock_of_eq rfl rfl
  next credential _ =>
  split
  · exact keepsLock_of_eq rfl rfl
  set d₁ : DaemonState := { d with blobs := d.blobs.insert service encryptedBlob } with hd₁
  have hsaved := d₁.takeSaved_same env service credential
  rcases (d₁.takeSaved env service credential).unlockTail_cases env unlockKey with
    ⟨hopen, hok, -⟩ | ⟨hsame, hprov, ⟨e, herror⟩, hfails⟩
  · split
    · next heq => cases (congrArg Prod.snd heq).symm.trans hok
    · next d₂ heq =>
      refine Or.inl ⟨?_, rfl⟩
      rw [heq] at hopen
      exact hopen
  · split
    · next d₂ e' heq =>
      rw [heq] at hsame hprov
      refine Or.inr ⟨hsame.trans hsaved.1, fun hlocked hempty hbuilds => ?_⟩
      have hno : d.accounts.accounts.contains service = false := by
        simpa [buildsWhileLocked, hlocked, hfails] using hbuilds
      exact hprov.trans ((hsaved.2 hno).trans hempty)
    · next heq => cases (congrArg Prod.snd heq).symm.trans herror

theorem handleAddAccount_keepsLock (config : AccountConfig) (d : DaemonState) :
    KeepsLock (d.buildsWhileLocked env (.addAccount config)) d (d.handleAddAccount env config) := by
  unfold handleAddAccount
  split
  · exact keepsLock_of_eq rfl rfl
  · next accounts _ =>
    dsimp only
    have hsame : ({ d with accounts := accounts } : DaemonState).apiKeyFor config.name =
        d.apiKeyFor config.name := rfl
    rw [hsame]
    cases hkey : d.apiKeyFor config.name with
    | none => exact keepsLock_of_eq rfl rfl
    | some key =>
      refine Or.inr ⟨resolveAccountProvider_locked env _ _ _, fun hlocked _ hbuilds => ?_⟩
      simp [buildsWhileLocked, hlocked, hkey] at hbuilds

theorem handleRemoveAccount_keepsLock (name : String) (builds : Bool)
    (d : DaemonState) : KeepsLock builds d (d.handleRemoveAccount env name) := by
  unfold handleRemoveAccount
  split
  · exact keepsLock_of_eq rfl rfl
  · refine Or.inr ⟨rfl, fun _ hempty _ => ?_⟩
    dsimp only
    rw [hempty]
    exact Std.ExtTreeMap.erase_empty

theorem handleRemoveCredential_keepsLock (builds : Bool)
    (d : DaemonState) : KeepsLock builds d (d.handleRemoveCredential env service) := by
  unfold handleRemoveCredential
  split
  · exact keepsLock_of_eq rfl rfl
  · refine Or.inr ⟨rfl, fun _ hempty _ => ?_⟩
    dsimp only
    rw [hempty]
    exact Std.ExtTreeMap.erase_empty

variable (configs : List AccountConfig)

theorem foldl_rebuild (d : DaemonState)
    (hkeys : ∀ config ∈ configs, d.apiKeyFor config.name = none) (hempty : d.providers = ∅) :
    (configs.foldl (fun d config =>
      ({ d with providers := d.providers.erase config.name } : DaemonState).resolveAccountProvider
        env config.name (d.apiKeyFor config.name)) d).providers = ∅ := by
  induction configs generalizing d with
  | nil => exact hempty
  | cons config configs ih =>
    rw [foldl_cons, hkeys config mem_cons_self, resolveAccountProvider_none]
    refine ih _ (fun c hc => hkeys c (mem_cons_of_mem _ hc)) ?_
    dsimp only
    rw [hempty]
    exact Std.ExtTreeMap.erase_empty

theorem foldl_rebuild_locked (d : DaemonState) :
    (configs.foldl (fun d config =>
      ({ d with providers := d.providers.erase config.name } : DaemonState).resolveAccountProvider
        env config.name (d.apiKeyFor config.name)) d).locked = d.locked := by
  induction configs generalizing d with
  | nil => rfl
  | cons config configs ih => rw [foldl_cons, ih, resolveAccountProvider_locked]

theorem foldl_erase_empty :
    configs.foldl (fun m config => m.erase config.name)
      (∅ : Std.ExtTreeMap String InferenceProvider) = ∅ := by
  induction configs with
  | nil => rfl
  | cons config configs ih => rw [foldl_cons, Std.ExtTreeMap.erase_empty, ih]

theorem handleAccountsReload_keepsLock (d : DaemonState) :
    KeepsLock (d.buildsWhileLocked env .accountsReload) d (d.handleAccountsReload env) := by
  unfold handleAccountsReload
  split
  · exact keepsLock_of_eq rfl rfl
  split
  · exact keepsLock_of_eq rfl rfl
  split_ifs
  · exact keepsLock_of_eq rfl rfl
  · refine Or.inr ⟨?_, fun hlocked hempty hbuilds => ?_⟩
    · exact foldl_rebuild_locked env _ _
    · refine foldl_rebuild env _ _ (fun config hconfig => ?_) ?_
      · have hnone : ∀ config ∈ d.accounts.allConfigs, d.apiKeyFor config.name = none := by
          simpa [buildsWhileLocked, hlocked] using hbuilds
        exact hnone config (mem_of_mem_filter hconfig)
      · dsimp only
        rw [hempty]
        exact foldl_erase_empty _

theorem handleCommand_locked {command : DaemonCommand} (hlock : command ≠ .lock)
    (d : DaemonState) :
    KeepsLock (d.buildsWhileLocked env command) d (d.handleCommand env command) := by
  cases command with
  | unlock privateKey => exact d.handleUnlock_keepsLock env privateKey _
  | bindKeystore key => exact d.handleBindKeystore_keepsLock env key _
  | lock => exact absurd rfl hlock
  | saveCredential service encryptedBlob unlockKey =>
    exact d.handleSaveCredential_keepsLock env service encryptedBlob unlockKey
  | removeCredential service => exact d.handleRemoveCredential_keepsLock env service _
  | addAccount config => exact d.handleAddAccount_keepsLock env config
  | removeAccount name => exact d.handleRemoveAccount_keepsLock env name _
  | accountsReload => exact d.handleAccountsReload_keepsLock env

end DaemonState

namespace Host

/-- The condition on the steps: when the daemon is locked no session thread holds a provider, and no
provider is built while it is locked. -/
def tight (label : HostLabel) (h : Host) : Bool :=
  match label with
  | .daemon _ .lock => h.sessions.toList.all fun entry => !entry.2.holdsProvider
  | .daemon env command => !h.daemon.buildsWhileLocked env command
  | _ => true

def unlocks (label : HostLabel) (h : Host) : Bool :=
  match label with
  | .daemon env command => (h.daemon.handleCommand env command).2.any DaemonOutput.isUnlock
  | _ => false

/-- While the daemon is locked, neither it nor a session thread holds a provider. -/
def Sealed (h : Host) : Prop :=
  h.daemon.locked = true → h.daemon.providers = ∅ ∧
    ∀ (id : ℕ) (t : SessionThread), h.sessions[id]? = some t → t.holdsProvider = false

theorem sealed_init (env : DaemonEnv) (binding : Option Bytes)
    (blobs : Std.ExtTreeMap String Bytes) (stores : Std.ExtTreeMap ℕ Store) :
    (init env binding blobs stores).Sealed := by
  refine fun _ => ⟨rfl, fun id t ht => ?_⟩
  simp only [init, Std.ExtTreeMap.getElem?_map] at ht
  obtain ⟨store, -, rfl⟩ := map_eq_some_iff.1 ht
  rfl

variable {setup : AgentSetup}

theorem step_without_provider {label : SystemLabel} {t t' : SessionThread}
    (hnone : t.holdsProvider = false) (h : t.step setup label = some t') :
    t'.holdsProvider = false ∧
      (label.isProcess = true → t'.system.loop.spawned = none) := by
  cases hlabel : label.isProcess with
  | false =>
    obtain ⟨hlive, hroute, hanswer, -⟩ := SessionThread.step_of_not_process hlabel h
    refine ⟨?_, fun h => by cases h⟩
    have hprovider : t'.system.loop.state.provider = t.system.loop.state.provider :=
      congrArg Prod.snd hroute
    unfold SessionThread.holdsProvider at hnone ⊢
    rw [hlive, hprovider, hanswer]
    exact hnone
  | true =>
    cases label with
    | process env =>
      obtain ⟨hlive, hanswer, hroute, hspawned⟩ := SessionThread.step_process h
      simp only [SessionThread.holdsProvider, hlive, Bool.true_and, Bool.or_eq_false_iff,
        isSome_eq_false_iff, isNone_iff_eq_none] at hnone
      have hprovider : t'.system.loop.state.provider = none := by
        refine (congrArg Prod.snd hroute).trans ?_
        cases t.asking with
        | none => exact hnone.1
        | some name =>
          dsimp only
          rw [hnone.1, hnone.2]
          rfl
      constructor
      · simp [SessionThread.holdsProvider, hprovider, hanswer]
      · intro _
        cases hargs : t'.system.loop.spawned with
        | none => rfl
        | some args =>
          rw [hspawned args hargs] at hprovider
          cases hprovider
    | _ => cases hlabel

theorem holdsProvider_of_started {d : DaemonState} {t : SessionThread} (hempty : d.providers = ∅)
    (h : Started d t) : t.holdsProvider = false := by
  have hprovider : t.system.loop.state.provider = none := by
    refine (congrArg Prod.snd h.route).trans ?_
    rw [hempty]
    cases t.system.loop.state.config.accountName with
    | none => rfl
    | some name => exact Std.ExtTreeMap.getElem?_empty
  simp [SessionThread.holdsProvider, hprovider, h.answer]

/-- A step that meets the condition keeps everything sealed. -/
theorem step_sealed (label : HostLabel) (h h' : Host)
    (htight : tight label h = true) (hsealed : h.Sealed) (hstep : step setup label h = some h') :
    h'.Sealed := by
  intro hlocked
  rcases step_daemon hstep with hd | ⟨env, command, rfl, rfl⟩ | ⟨env, rfl, rfl⟩
  · rw [hd] at hlocked ⊢
    obtain ⟨hempty, hthreads⟩ := hsealed hlocked
    refine ⟨hempty, fun id t' ht' => ?_⟩
    rcases thread_cases hstep ht' with ⟨ht, -⟩ | ⟨-, hstarted⟩ | ⟨-, t, name, ht, -, rfl⟩ |
      ⟨-, t, slabel, -, ht, hthread⟩ | ⟨hlive, -⟩
    · exact hthreads id t' ht
    · exact holdsProvider_of_started hempty hstarted
    · have hnone := hthreads id t ht
      simp only [SessionThread.holdsProvider, hempty, Std.ExtTreeMap.getElem?_empty, join_some,
        isSome_none, Bool.or_false] at hnone ⊢
      exact Bool.and_eq_false_imp.2 fun hlive => by simp_all
    · exact (step_without_provider (hthreads id t ht) hthread).1
    · simp [SessionThread.holdsProvider, hlive]
  · by_cases hlock : command = .lock
    · cases hlock
      refine ⟨rfl, fun id t ht => ?_⟩
      have hall := List.all_eq_true.1 htight (id, t)
        (Std.ExtTreeMap.mem_toList_iff_getElem?_eq_some.2 ht)
      simpa using hall
    · have hbuilds : h.daemon.buildsWhileLocked env command = false := by
        cases command with
        | lock => exact absurd rfl hlock
        | _ => simpa [tight] using htight
      rcases DaemonState.handleCommand_locked env hlock h.daemon with ⟨hopen, -⟩ | ⟨hsame, hkeep⟩
      · cases hopen.symm.trans hlocked
      · have hbefore : h.daemon.locked = true := hsame.symm.trans hlocked
        obtain ⟨hempty, hthreads⟩ := hsealed hbefore
        exact ⟨hkeep hbefore hempty hbuilds, hthreads⟩
  · exact sealed_init env _ _ _ hlocked

theorem step_locked (label : HostLabel) (h h' : Host)
    (hunlocks : unlocks label h = false) (hlocked : h.daemon.locked = true)
    (hstep : step setup label h = some h') : h'.daemon.locked = true := by
  rcases step_daemon hstep with hd | ⟨env, command, rfl, rfl⟩ | ⟨env, rfl, rfl⟩
  · rw [hd]
    exact hlocked
  · by_cases hlock : command = .lock
    · cases hlock
      rfl
    · rcases DaemonState.handleCommand_locked env hlock h.daemon with ⟨-, hany⟩ | ⟨hsame, -⟩
      · cases hunlocks.symm.trans hany
      · exact hsame.trans hlocked
  · rfl

/-- In every run whose steps meet the condition, no session accepts a request after a lock, until a
command unlocks the daemon. -/
theorem refuses_after_lock {setup : AgentSetup} {denv : DaemonEnv} {binding : Option Bytes}
    {blobs : Std.ExtTreeMap String Bytes} {stores : Std.ExtTreeMap ℕ Store} {lockEnv : DaemonEnv}
    {before after : List HostLabel} {h₁ h₂ h₃ : Host} {id : ℕ} {env : CommandEnv}
    {t : SessionThread}
    (htight : StepSystem.Along (step setup) (fun label h => tight label h = true)
      ((before ++ [.daemon lockEnv .lock]) ++ after) (init denv binding blobs stores))
    (hbefore : StepSystem.run (step setup) (before ++ [.daemon lockEnv .lock])
      (init denv binding blobs stores) = some h₁)
    (hunlocks : StepSystem.Along (step setup) (fun label h => unlocks label h = false) after h₁)
    (hafter : StepSystem.run (step setup) after h₁ = some h₂)
    (hstep : step setup (.session id (.process env)) h₂ = some h₃)
    (ht : h₃.sessions[id]? = some t) : t.system.loop.spawned = none := by
  have hlocked₁ : h₁.daemon.locked = true := by
    obtain ⟨h₀, -, hlock⟩ := StepSystem.run_concat_eq_some.1 hbefore
    cases hlock
    rfl
  have hlocked₂ : h₂.daemon.locked = true :=
    StepSystem.invariant_of_along (G := fun label h => unlocks label h = false)
      (I := fun h => h.daemon.locked = true) step_locked hlocked₁ hunlocks hafter
  have hsealed : h₂.Sealed :=
    StepSystem.invariant_of_along (G := fun label h => tight label h = true) step_sealed
      (sealed_init denv binding blobs stores) htight
      (StepSystem.run_append_eq_some.2 ⟨h₁, hbefore, hafter⟩)
  simp only [step] at hstep
  split at hstep
  · cases hstep
  · next t₀ ht₀ =>
    obtain ⟨t₁, hthread, rfl⟩ := map_eq_some_iff.1 hstep
    rw [get_setThread, if_pos rfl] at ht
    cases ht
    exact (step_without_provider ((hsealed hlocked₂).2 id t₀ ht₀) hthread).2 rfl

def inputAfterEarlyLock : List HostLabel :=
  [.attach Sample.catalog true 1, .session 1 (.send (.runInput 1 "hi")), .answer 1]

theorem refuses_after_earlyLock :
    ∃ h t, StepSystem.run (step Sample.setup)
        (([.daemon Sample.daemonEnv (.unlock Sample.key)] ++ [.daemon Sample.daemonEnv .lock]) ++
          inputAfterEarlyLock ++ [.session 1 (.process Sample.env)]) Sample.host = some h ∧
      h.sessions[1]? = some t ∧ t.system.loop.spawned = none := by
  have hrun : ((StepSystem.run (step Sample.setup)
      (([.daemon Sample.daemonEnv (.unlock Sample.key)] ++ [.daemon Sample.daemonEnv .lock]) ++
        inputAfterEarlyLock ++ [.session 1 (.process Sample.env)]) Sample.host).bind fun h =>
        h.sessions[1]?.map fun t => t.system.live) = some true := by
    decide
  obtain ⟨h, hrun, ht⟩ := bind_eq_some_iff.1 hrun
  obtain ⟨t, ht, -⟩ := map_eq_some_iff.1 ht
  obtain ⟨h₂, hrun₂, hstep⟩ := StepSystem.run_concat_eq_some.1 hrun
  obtain ⟨h₁, hrun₁, hafter⟩ := StepSystem.run_append_eq_some.1 hrun₂
  have hunlocks : ∀ label ∈ inputAfterEarlyLock, ∀ h, unlocks label h = false := by
    simp [inputAfterEarlyLock, unlocks]
  exact ⟨h, t, hrun, ht, refuses_after_lock (by decide) hrun₁
    (StepSystem.Along.of_labels hunlocks) hafter hstep ht⟩

/-- The session is started before the lock; the input arrives after it. -/
def inputAfterLock : List HostLabel :=
  Sample.unlockAndAttach ++ [HostLabel.daemon Sample.daemonEnv .lock, .session 1 (.send (.runInput 1 "hi"))]

/-- The request is accepted with the provider that the session had cached, and its API key. -/
theorem accepted_after_lock :
    ∃ h t args, StepSystem.run (step Sample.setup)
        (inputAfterLock ++ [.session 1 (.process Sample.env)]) Sample.host = some h ∧
      h.daemon.locked = true ∧ h.sessions[1]? = some t ∧ t.system.loop.spawned = some args ∧
      args.client.client.apiKey = "key" := by
  have hrun : ((StepSystem.run (step Sample.setup)
      (inputAfterLock ++ [.session 1 (.process Sample.env)]) Sample.host).bind fun h =>
        h.sessions[1]?.bind fun t => t.system.loop.spawned.map fun args =>
          decide (h.daemon.locked = true ∧ args.client.client.apiKey = "key")) = some true := by
    decide +kernel
  obtain ⟨h, hrun, hargs⟩ := bind_eq_some_iff.1 hrun
  obtain ⟨t, ht, hargs⟩ := bind_eq_some_iff.1 hargs
  obtain ⟨args, hargs, hfacts⟩ := map_eq_some_iff.1 hargs
  obtain ⟨hlocked, hkey⟩ := of_decide_eq_true hfacts
  exact ⟨h, t, args, hrun, hlocked, ht, hargs, hkey⟩

end Host

end Choreo
