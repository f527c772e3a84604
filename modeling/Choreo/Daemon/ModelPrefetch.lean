import Choreo.Daemon.ProviderMap
import Mathlib.Data.Finset.Basic

/-!
# The cache of model lists

Model lists are fetched by threads that report to the command loop with the name of the account
only. The loop stores a list if the account has a provider by then. It does not compare this
provider with the one that the list was fetched with, and a command that replaces or removes a
provider leaves the list of its account in the cache.
-/

namespace Choreo

open Option

/-! ### What a command makes of the providers -/

/-- The accounts that an unlock takes over: those of the file, with a default account when there is
none but an OpenAI credential. -/
def AccountManager.withDefault (env : DaemonEnv) (openai : Bool) (accounts : AccountManager) :
    AccountManager :=
  if accounts.accounts.isEmpty && openai then
    (accounts.add env (DaemonState.simpleAccount "default" "openai")).1
  else accounts

theorem InferenceProvider.toOption_fromAccountConfig_none (catalog : Catalog)
    (connect : ProviderClient → Option String) (config : AccountConfig) :
    (fromAccountConfig catalog connect config none).toOption = none := by
  cases hbuild : fromAccountConfig catalog connect config none with
  | error e => rfl
  | ok provider => cases fromAccountConfig_apiKey hbuild

namespace DaemonState

variable (env : DaemonEnv)

def builtWith (accounts : AccountManager) (account : String)
    (apiKey : Option String) : Option InferenceProvider :=
  accounts.accounts[account]?.bind fun config =>
    (InferenceProvider.fromAccountConfig env.catalog env.connect config apiKey).toOption

variable (key : Bytes)

/-- The provider that an unlock builds for an account, from the accounts file and the credentials
that the key decrypts. -/
def openedWith (d : DaemonState) (account : String) :
    Option InferenceProvider :=
  match env.accountsConfigPath with
  | .error _ => none
  | .ok path =>
    match AccountManager.load env path with
    | .error _ => none
    | .ok accounts =>
      builtWith env (accounts.withDefault env ((d.decryptAll env key).contains "openai")) account
        ((d.decryptAll env key)[account]?.bind ServiceCredential.asApiKey)

variable (service : String)

/-- The provider of an account when a credential was saved but the unlock that follows fails. -/
def savedWith (blob key : Bytes) (d : DaemonState)
    (account : String) : Option InferenceProvider :=
  match (openBlob env key blob).toOption.bind ServiceCredential.asApiKey with
  | some apiKey =>
    if account = service then
      (builtWith env d.accounts account (some apiKey)).or d.providers[account]?
    else d.providers[account]?
  | none => d.providers[account]?

variable (fresh : AccountManager)

/-- The provider of an account after a reload of the accounts. An account that was not there before
gets none. -/
def reloadedWith (d : DaemonState) (account : String) :
    Option InferenceProvider :=
  match d.accounts.accounts[account]?, fresh.accounts[account]? with
  | some old, some new =>
    if new = old then d.providers[account]?
    else builtWith env fresh account (d.apiKeyFor account)
  | some _, none => none
  | none, _ => d.providers[account]?

variable (command : DaemonCommand)

def registered (d : DaemonState) (account : String) :
    Option InferenceProvider :=
  match command with
  | .unlock key =>
    if d.reachesTail env (.unlock key) && !env.unlockFails then d.openedWith env key account
    else d.providers[account]?
  | .bindKeystore key =>
    if d.reachesTail env (.bindKeystore key) && !env.unlockFails then d.openedWith env key account
    else d.providers[account]?
  | .saveCredential service blob key =>
    if d.reachesTail env (.saveCredential service blob key) then
      if env.unlockFails then d.savedWith env service blob key account
      else openedWith env key { d with blobs := d.blobs.insert service blob } account
    else d.providers[account]?
  | .lock => none
  | .removeCredential service =>
    if env.removeBlob.isNone && account = service then none else d.providers[account]?
  | .addAccount config =>
    if config.validate.toBool && !d.accounts.accounts.contains config.name &&
        env.saveAccounts.isNone && account = config.name then
      (InferenceProvider.fromAccountConfig env.catalog env.connect config
        (d.apiKeyFor account)).toOption.or d.providers[account]?
    else d.providers[account]?
  | .removeAccount name =>
    if d.accounts.accounts.contains name && env.saveAccounts.isNone && account = name then none
    else d.providers[account]?
  | .accountsReload =>
    match d.accounts.configPath with
    | none => d.providers[account]?
    | some path =>
      match AccountManager.load env path with
      | .error _ => d.providers[account]?
      | .ok fresh => d.reloadedWith env fresh account

theorem get_resolveAccountProvider_with (d : DaemonState) (name : String)
    (apiKey : Option String) (k : String) :
    (d.resolveAccountProvider env name apiKey).providers[k]? =
      if k = name then (builtWith env d.accounts k apiKey).or d.providers[k]?
      else d.providers[k]? := by
  rw [resolveAccountProvider]
  by_cases hk : k = name
  · subst hk
    rw [if_pos rfl, builtWith]
    cases d.accounts.accounts[k]? with
    | none => rfl
    | some config =>
      rw [bind_some]
      cases hbuild : InferenceProvider.fromAccountConfig env.catalog env.connect config apiKey with
      | error e => simp only [hbuild, Except.toOption, none_or]
      | ok provider => simp [hbuild, Except.toOption]
  · rw [if_neg hk]
    split
    · rfl
    · split
      · rfl
      · rw [Std.ExtTreeMap.get_insert, if_neg hk]

theorem takeAccounts_eq (accounts : AccountManager) (d : DaemonState) :
    (d.takeAccounts env accounts).accounts =
        accounts.withDefault env (d.credentials.contains "openai") ∧
      (d.takeAccounts env accounts).credentials = d.credentials := by
  have hfold : ∀ (configs : List AccountConfig) (d : DaemonState),
      (configs.foldl (fun d config =>
          d.resolveAccountProvider env config.name (d.apiKeyFor config.name)) d).accounts =
          d.accounts ∧
        (configs.foldl (fun d config =>
          d.resolveAccountProvider env config.name (d.apiKeyFor config.name)) d).credentials =
          d.credentials := by
    intro configs
    induction configs with
    | nil => exact fun d => ⟨rfl, rfl⟩
    | cons config configs ih =>
      intro d
      obtain ⟨ha, hc⟩ := resolveAccountProvider_accounts env config.name
        (d.apiKeyFor config.name) d
      exact ⟨(ih _).1.trans ha, (ih _).2.trans hc⟩
  exact hfold _ _

/-- An unlock whose last part succeeds builds the providers from the file and the blobs. -/
theorem get_unlockTail {env : DaemonEnv} (hfails : env.unlockFails = false) (key : Bytes)
    (d : DaemonState) (k : String) :
    (d.unlockTail env key).1.providers[k]? = d.openedWith env key k := by
  rw [unlockTail, openedWith]
  rw [DaemonEnv.unlockFails] at hfails
  cases hread : env.readBlobs with
  | some e =>
    rw [hread] at hfails
    cases hfails
  | none =>
    cases hpath : env.accountsConfigPath with
    | error e =>
      rw [hread, hpath] at hfails
      cases hfails
    | ok path =>
      dsimp only
      cases hload : AccountManager.load env path with
      | error e => simp [hread, hpath, hload] at hfails
      | ok accounts =>
        obtain ⟨ha, hc⟩ := takeAccounts_eq env accounts (d.takeCredentials (d.decryptAll env key))
        have hget := (@takeAccounts_spec _ _ env rfl rfl _ (named_load hload)
          (d.takeCredentials (d.decryptAll env key))).2 k
        rw [built, ha, apiKeyFor_congr hc] at hget
        exact hget

theorem unlockTail_providers_of_fails {env : DaemonEnv} (hfails : env.unlockFails = true)
    (key : Bytes) (d : DaemonState) : (d.unlockTail env key).1.providers = d.providers := by
  obtain ⟨hok, -⟩ | ⟨-, heq, -⟩ := d.unlockTail_outcome env key
  · rw [hfails] at hok
    cases hok
  · rw [heq]
    split_ifs <;> rfl

variable {d : DaemonState}

theorem unlockTail_named
    (h : d.accounts.Named) : (d.unlockTail env key).1.accounts.Named := by
  cases hfails : env.unlockFails with
  | false => exact (@unlockTail_sound _ _ env rfl rfl key d (Or.inl hfails)).1
  | true =>
    obtain ⟨hok, -⟩ | ⟨-, heq, -⟩ := d.unlockTail_outcome env key
    · rw [hfails] at hok
      cases hok
    · rw [heq]
      split_ifs <;> exact h

theorem openedWith_congr {d d' : DaemonState} (h : d'.blobs = d.blobs) (env : DaemonEnv)
    (key : Bytes) (k : String) : d'.openedWith env key k = d.openedWith env key k := by
  rw [openedWith, openedWith, decryptAll, decryptAll, h]

theorem get_handleUnlock (d : DaemonState) (k : String) :
    (d.handleUnlock env key).1.providers[k]? = d.registered env (.unlock key) k := by
  have hreaches : d.reachesTail env (.unlock key) = d.acceptsKey env key := rfl
  rw [registered, hreaches, acceptsKey, handleUnlock, announceUnlock_fst, handleUnlockInner,
    zeroizedKeyOrWipe]
  by_cases hlength : key.length = 32
  · rw [if_pos hlength, decide_eq_true hlength]
    dsimp only
    cases d.verifyKeystoreBinding env key with
    | error e => rfl
    | ok _ =>
      cases hfails : env.unlockFails with
      | false => exact get_unlockTail hfails key d k
      | true =>
        simp only [asKeystoreResult, unlockTail_providers_of_fails hfails]
        rfl
  · simp [hlength]

theorem get_handleBindKeystore (d : DaemonState) (k : String) :
    (d.handleBindKeystore env key).1.providers[k]? = d.registered env (.bindKeystore key) k := by
  have hreaches : d.reachesTail env (.bindKeystore key) = d.acceptsBinding env key := rfl
  rw [registered, hreaches, acceptsBinding, handleBindKeystore, announceUnlock_fst,
    handleBindKeystoreInner, zeroizedKeyOrWipe]
  by_cases hlength : key.length = 32
  · rw [if_pos hlength, decide_eq_true hlength]
    dsimp only
    cases hbind : d.bindKeystore env key with
    | mk d₁ result =>
      cases result with
      | error e =>
        rw [bindKeystore_error hbind]
        rfl
      | ok _ =>
        obtain ⟨-, honly, -⟩ := bindKeystore_ok hbind
        cases hfails : env.unlockFails with
        | false =>
          refine (get_unlockTail hfails key d₁ k).trans ?_
          exact openedWith_congr (by rw [honly]) env key k
        | true =>
          simp only [asKeystoreResult, unlockTail_providers_of_fails hfails]
          rw [honly]
          rfl
  · simp [hlength]

theorem get_takeSaved {env : DaemonEnv} {key blob : Bytes} {credential : ServiceCredential}
    (hopen : openBlob env key blob = .ok credential) (service : String) (d : DaemonState)
    (k : String) :
    (d.takeSaved env service credential).providers[k]? = d.savedWith env service blob key k := by
  rw [takeSaved, savedWith, hopen]
  simp only [Except.toOption, bind_some]
  cases hkey : credential.asApiKey with
  | none =>
    dsimp only
    split_ifs <;> rfl
  | some apiKey =>
    dsimp only
    rw [get_resolveAccountProvider_with]
    split_ifs <;> rfl

theorem takeSaved_blobs (credential : ServiceCredential)
    (d : DaemonState) : (d.takeSaved env service credential).blobs = d.blobs := by
  have hresolve : ∀ (name : String) (apiKey : Option String) (d : DaemonState),
      (d.resolveAccountProvider env name apiKey).blobs = d.blobs := by
    intro name apiKey d
    rw [resolveAccountProvider]
    split
    · rfl
    · split <;> rfl
  rw [takeSaved]
  split
  · rw [hresolve]
    split_ifs <;> rfl
  · split_ifs <;> rfl

theorem get_handleSaveCredential (blob key : Bytes)
    (d : DaemonState) (k : String) :
    (d.handleSaveCredential env service blob key).1.providers[k]? =
      d.registered env (.saveCredential service blob key) k := by
  have hsame : d.reachesTail env (.saveCredential service blob key) = false →
      d.providers[k]? = d.registered env (.saveCredential service blob key) k := by
    intro h
    rw [registered, h]
    rfl
  rw [handleSaveCredential]
  dsimp only
  split_ifs with hlength
  · exact hsame (by simp [reachesTail, acceptsKey, hlength])
  split
  · next hverify => exact hsame (by simp [reachesTail, acceptsKey, hverify, Except.toBool])
  · next hverify => exact hsame (by simp [reachesTail, acceptsKey, hverify, Except.toBool])
  next hverify =>
  split
  · next hdecrypt =>
    exact hsame (by simp [reachesTail, openBlob, hdecrypt, Except.toBool, bind, Except.bind])
  next plaintext hdecrypt =>
  split
  · next hdecode =>
    exact hsame (by
      simp [reachesTail, openBlob, hdecrypt, hdecode, Except.toBool, bind, Except.bind])
  next credential hdecode =>
  split
  · next hwrite => exact hsame (by simp [reachesTail, hwrite])
  next hwrite =>
  have hopen : openBlob env key blob = .ok credential := by
    rw [openBlob, hdecrypt]
    exact hdecode
  have hreaches : d.reachesTail env (.saveCredential service blob key) = true := by
    simp [reachesTail, acceptsKey, not_not.1 hlength, hverify, hopen, hwrite, Except.toBool]
  set d₁ : DaemonState := { d with blobs := d.blobs.insert service blob } with hd₁
  have htail : ((d₁.takeSaved env service credential).unlockTail env key).1.providers[k]? =
      d.registered env (.saveCredential service blob key) k := by
    simp only [registered, hreaches, if_true]
    cases hfails : env.unlockFails with
    | false =>
      rw [get_unlockTail hfails]
      exact openedWith_congr (takeSaved_blobs env service credential d₁) env key k
    | true =>
      rw [unlockTail_providers_of_fails hfails, get_takeSaved hopen]
      rfl
  split
  · next heq =>
    rw [heq] at htail
    exact htail
  · next heq =>
    rw [heq] at htail
    exact htail

theorem get_handleAddAccount (config : AccountConfig) (d : DaemonState)
    (k : String) :
    (d.handleAddAccount env config).1.providers[k]? = d.registered env (.addAccount config) k := by
  rw [handleAddAccount, AccountManager.add, registered]
  cases hvalid : config.validate with
  | error e => simp [Except.toBool]
  | ok _ =>
    by_cases hcontains : d.accounts.accounts.contains config.name = true
    · simp [hcontains]
    · simp only [if_neg hcontains, AccountManager.save]
      rw [Bool.not_eq_true] at hcontains
      cases hsave : env.saveAccounts with
      | some e => simp
      | none =>
        simp only [hcontains, Except.toBool, Bool.not_false, isNone_none, Bool.true_and,
          decide_eq_true_eq]
        have hkeys : ∀ name, apiKeyFor { d with accounts := { d.accounts with
            accounts := d.accounts.accounts.insert config.name config } } name =
            d.apiKeyFor name := fun _ => rfl
        rw [hkeys]
        cases hkey : d.apiKeyFor config.name with
        | none =>
          split_ifs with hk
          · rw [hk, hkey, InferenceProvider.toOption_fromAccountConfig_none, none_or]
          · rfl
        | some apiKey =>
          simp only [get_resolveAccountProvider_with, builtWith]
          split_ifs with hk
          · rw [hk, hkey, Std.ExtTreeMap.get_insert, if_pos rfl]
            rfl
          · rfl

theorem get_handleRemoveAccount (name : String) (d : DaemonState) (k : String) :
    (d.handleRemoveAccount env name).1.providers[k]? =
      d.registered env (.removeAccount name) k := by
  rw [handleRemoveAccount, AccountManager.remove, registered, AccountManager.save]
  by_cases hcontains : d.accounts.accounts.contains name = true
  · cases hsave : env.saveAccounts with
    | some e => simp [hcontains]
    | none => simp [hcontains, Std.ExtTreeMap.get_erase]
  · simp [hcontains]

theorem accounts_congr {manager manager' : AccountManager} (hnamed : manager.Named)
    (hnamed' : manager'.Named) (h : manager.allConfigs = manager'.allConfigs) (k : String) :
    manager.accounts[k]? = manager'.accounts[k]? := by
  have himp : ∀ {m m' : AccountManager}, m.Named → m'.Named → m.allConfigs = m'.allConfigs →
      ∀ config, m.accounts[k]? = some config → m'.accounts[k]? = some config := by
    intro m m' hm hm' hall config hconfig
    have hmem : config ∈ m'.allConfigs := by
      rw [← hall]
      exact Std.ExtTreeMap.mem_values_iff.2 ⟨k, hconfig⟩
    obtain ⟨name, hname⟩ := Std.ExtTreeMap.mem_values_iff.1 hmem
    rw [← hm k config hconfig, hm' name config hname]
    exact hname
  ext config
  exact ⟨himp hnamed hnamed' h config, himp hnamed' hnamed h.symm config⟩

theorem changedIn_eq (config : AccountConfig) :
    changedIn fresh config = (fresh.accounts[config.name]?).any fun new => decide (new ≠ config) := by
  rw [changedIn]
  rcases fresh.accounts[config.name]? with _ | new <;> rfl

theorem goneIn_eq (config : AccountConfig) :
    goneIn fresh config = fresh.accounts[config.name]?.isNone := by
  rw [goneIn, Std.ExtTreeMap.contains_eq_isSome_getElem?, not_isSome]

theorem get_handleAccountsReload (hnamed : d.accounts.Named)
    (k : String) :
    (d.handleAccountsReload env).1.providers[k]? = d.registered env .accountsReload k := by
  rw [handleAccountsReload, registered]
  cases hpath : d.accounts.configPath with
  | none => rfl
  | some path =>
    dsimp only
    cases hload : AccountManager.load env path with
    | error e => rfl
    | ok fresh =>
      have hfresh := named_load hload
      dsimp only
      split_ifs with hall
      · rw [reloadedWith, accounts_congr hfresh hnamed hall]
        cases d.accounts.accounts[k]? with
        | none => rfl
        | some config => simp
      · obtain ⟨ha, hc, hp⟩ := @get_reloadAccounts _ _ env rfl rfl fresh d
        refine (hp k).trans ?_
        simp only [mem_map_name_filter hnamed, built, ha, apiKeyFor_congr hc, reloadedWith]
        cases hold : d.accounts.accounts[k]? with
        | none => simp
        | some old =>
          have hgone := goneIn_eq fresh old
          have hchanged := changedIn_eq fresh old
          rw [hnamed k old hold] at hgone hchanged
          cases hnew : fresh.accounts[k]? with
          | none =>
            rw [hnew] at hgone hchanged
            simp [hgone, hchanged]
          | some new =>
            rw [hnew] at hgone hchanged
            simp [hgone, hchanged, builtWith, hnew]

theorem get_handleCommand
    (hnamed : d.accounts.Named) (k : String) :
    (d.handleCommand env command).1.providers[k]? = d.registered env command k := by
  cases command with
  | unlock key => exact get_handleUnlock env key d k
  | bindKeystore key => exact get_handleBindKeystore env key d k
  | lock => rfl
  | saveCredential service blob key => exact get_handleSaveCredential env service blob key d k
  | removeCredential service =>
    simp only [handleCommand, handleRemoveCredential, registered]
    cases env.removeBlob with
    | some e => simp
    | none => simp [Std.ExtTreeMap.get_erase]
  | addAccount config => exact get_handleAddAccount env config d k
  | removeAccount name => exact get_handleRemoveAccount env name d k
  | accountsReload => exact get_handleAccountsReload env hnamed k

/-- Every command keeps each account under its own name. -/
theorem handleCommand_named
    (h : d.accounts.Named) : (d.handleCommand env command).1.accounts.Named := by
  have hends : ∀ {d'}, EndsInTail env command d d' → d'.accounts.Named := by
    rintro d' (⟨haccounts, -⟩ | ⟨-, key, d₁, haccounts, -, rfl⟩)
    · rw [haccounts]
      exact h
    · exact unlockTail_named env key (by rw [haccounts]; exact h)
  cases command with
  | unlock key => exact hends (handleUnlock_endsInTail env key d)
  | bindKeystore key => exact hends (handleBindKeystore_endsInTail env key d)
  | lock => exact h
  | saveCredential service blob key =>
    exact hends (handleSaveCredential_endsInTail env service blob key d)
  | removeCredential service =>
    simp only [handleCommand, handleRemoveCredential]
    split <;> exact h
  | addAccount config =>
    have hadd := named_add env config h
    simp only [handleCommand, handleAddAccount]
    split
    · next heq =>
      rw [heq] at hadd
      exact hadd
    · next heq =>
      rw [heq] at hadd
      dsimp only
      split
      · rw [(resolveAccountProvider_accounts env _ _ _).1]
        exact hadd
      · exact hadd
  | removeAccount name =>
    simp only [handleCommand, handleRemoveAccount, AccountManager.remove]
    by_cases hcontains : d.accounts.accounts.contains name = true
    · simp only [if_pos hcontains]
      split <;> next heq =>
        rw [Prod.mk.injEq] at heq
        rw [← heq.1]
        exact named_erase h name
    · simp only [if_neg hcontains]
      exact h
  | accountsReload =>
    simp only [handleCommand, handleAccountsReload]
    split
    · exact h
    · split
      · exact h
      · next hload =>
        split_ifs
        · exact h
        · rw [(@get_reloadAccounts _ _ env rfl rfl _ d).1]
          exact named_load hload

end DaemonState

/-! ### Fetching model lists -/

/-- A cached model list, with the time it was stored. The provider that it was fetched with is not
kept by the daemon. -/
structure CachedModels where
  models : List String
  cachedAt : ℕ
  fetchedWith : InferenceProvider
deriving DecidableEq

/-- The result of a fetch, as it is sent to the command loop. The provider that the list was fetched
with is not part of the message. -/
structure PrefetchResult where
  account : String
  result : Except String (List String)
  fetchedWith : InferenceProvider

/-- The daemon with its model lists: the cache, the accounts with a fetch in flight, the threads
that fetch, each with its account and its copy of the provider, and the results that wait in the
channel of the command loop. -/
structure Prefetcher where
  daemon : DaemonState
  modelCache : Std.ExtTreeMap String CachedModels := ∅
  modelPrefetchInFlight : Finset String := ∅
  threads : List (String × InferenceProvider) := []
  results : List PrefetchResult := []

/-- The steps: the daemon handles a command; a session joins, attaches or switches to an account; a
client lists the models of an account; a thread finishes its fetch; the command loop takes the next
result; or the process dies and is started again. -/
inductive PrefetchLabel
  | command (env : DaemonEnv) (command : DaemonCommand)
  | join (account : String) (now : ℕ) (spawned : Bool)
  | listModels (account : String) (now : ℕ) (spawned : Bool)
  | fetched (thread : ℕ) (result : Except String (List String))
  | takeResult (now : ℕ)
  | restart (env : DaemonEnv)

namespace Prefetcher

/-- The time in seconds for which a model list is fresh. -/
def modelCacheTtl : ℕ := 300

variable (account : String) (now : ℕ)

/-- Whether the model list of an account needs a fetch. -/
def shouldPrefetchModels (p : Prefetcher) : Bool :=
  if !p.daemon.providers.contains account || account ∈ p.modelPrefetchInFlight then false
  else
    match p.modelCache[account]? with
    | some cached => decide (modelCacheTtl ≤ now - cached.cachedAt)
    | none => true

/-- Starts a thread that fetches the model list of an account, if it needs a fetch. -/
def maybeSpawnModelPrefetch (spawned : Bool) (p : Prefetcher) :
    Prefetcher :=
  if p.shouldPrefetchModels account now then
    let p := { p with modelPrefetchInFlight := insert account p.modelPrefetchInFlight }
    match p.daemon.providers[account]? with
    | none => { p with modelPrefetchInFlight := p.modelPrefetchInFlight.erase account }
    | some provider =>
      if spawned then { p with threads := p.threads ++ [(account, provider)] }
      else { p with modelPrefetchInFlight := p.modelPrefetchInFlight.erase account }
  else p

/-- Takes the result of a fetch: a list is stored if the account has a provider. -/
def handleModelPrefetchResult (r : PrefetchResult) (p : Prefetcher) : Prefetcher :=
  let p := { p with modelPrefetchInFlight := p.modelPrefetchInFlight.erase r.account }
  match r.result with
  | .ok models =>
    if !p.daemon.providers.contains r.account then p
    else { p with modelCache := p.modelCache.insert r.account ⟨models, now, r.fetchedWith⟩ }
  | .error _ => p

/-- Lists the models of an account: a fresh list is served at once; otherwise a fetch is started,
and an old list is served if there is one. -/
def handleListModels (spawned : Bool) (p : Prefetcher) :
    Prefetcher × Except String (List String) :=
  if !p.daemon.providers.contains account then
    (p, .error
      (if p.daemon.accounts.accounts.isEmpty then "no accounts configured"
      else s!"no credential stored for account '{account}'"))
  else
    match p.modelCache[account]? with
    | some cached =>
      if now - cached.cachedAt < modelCacheTtl then (p, .ok cached.models)
      else (p.maybeSpawnModelPrefetch account now spawned, .ok cached.models)
    | none =>
      (p.maybeSpawnModelPrefetch account now spawned,
        .error (s!"model list for account '{account}' is warming in the " ++
          "background; retry in a moment"))

/-- A daemon that starts with the given database. -/
def boot (env : DaemonEnv) (binding : Option Bytes) (blobs : Std.ExtTreeMap String Bytes) :
    Prefetcher where
  daemon := DaemonState.boot env binding blobs

variable (label : PrefetchLabel)

def step (p : Prefetcher) : Option Prefetcher :=
  match label with
  | .command env command => some { p with daemon := (p.daemon.handleCommand env command).1 }
  | .join account now spawned => some (p.maybeSpawnModelPrefetch account now spawned)
  | .listModels account now spawned => some (p.handleListModels account now spawned).1
  | .fetched thread result =>
    match p.threads[thread]? with
    | some (account, provider) =>
      some { p with
        threads := p.threads.eraseIdx thread
        results := p.results ++ [⟨account, result, provider⟩] }
    | none => some p
  | .takeResult now =>
    match p.results with
    | r :: results =>
      some (handleModelPrefetchResult now r { p with results := results })
    | [] => some p
  | .restart env => some (boot env p.daemon.binding p.daemon.blobs)

/-- Every cached model list was fetched with the provider that is registered for its account. -/
def Current (p : Prefetcher) : Prop :=
  ∀ (account : String) (cached : CachedModels), p.modelCache[account]? = some cached →
    p.daemon.providers[account]? = some cached.fetchedWith

/-- The condition on the steps: a command leaves the providers of the accounts with a cached model
list as they are, and a list that is stored was fetched with the provider that is registered when it
arrives. -/
def KeepsCurrent (p : Prefetcher) : Prop :=
  match label with
  | .command env command =>
    ∀ account, p.modelCache.contains account = true →
      p.daemon.registered env command account = p.daemon.providers[account]?
  | .takeResult _ =>
    ∀ r models, p.results.head? = some r → r.result = .ok models →
      ∀ provider, p.daemon.providers[r.account]? = some provider → provider = r.fetchedWith
  | _ => True

/-! ### Steps -/

theorem maybeSpawnModelPrefetch_same (spawned : Bool)
    (p : Prefetcher) :
    (p.maybeSpawnModelPrefetch account now spawned).daemon = p.daemon ∧
      (p.maybeSpawnModelPrefetch account now spawned).modelCache = p.modelCache := by
  rw [maybeSpawnModelPrefetch]
  by_cases hshould : p.shouldPrefetchModels account now = true
  · rw [if_pos hshould]
    dsimp only
    cases p.daemon.providers[account]? with
    | none => exact ⟨rfl, rfl⟩
    | some provider => cases spawned <;> exact ⟨rfl, rfl⟩
  · rw [if_neg hshould]
    exact ⟨rfl, rfl⟩

theorem handleListModels_same (spawned : Bool) (p : Prefetcher) :
    (p.handleListModels account now spawned).1.daemon = p.daemon ∧
      (p.handleListModels account now spawned).1.modelCache = p.modelCache := by
  have hspawn := p.maybeSpawnModelPrefetch_same account now spawned
  rw [handleListModels]
  cases p.daemon.providers.contains account with
  | false => exact ⟨rfl, rfl⟩
  | true =>
    rw [if_neg (by simp)]
    cases p.modelCache[account]? with
    | none => exact hspawn
    | some cached =>
      dsimp only
      split_ifs
      · exact ⟨rfl, rfl⟩
      · exact hspawn

theorem handleModelPrefetchResult_daemon (r : PrefetchResult) (p : Prefetcher) :
    (p.handleModelPrefetchResult now r).daemon = p.daemon := by
  rw [handleModelPrefetchResult]
  split
  · split_ifs <;> rfl
  · rfl

variable {p p' : Prefetcher}

theorem current_congr (hdaemon : p'.daemon = p.daemon)
    (hcache : p'.modelCache = p.modelCache) (h : p.Current) : p'.Current := by
  intro account cached hcached
  rw [hcache] at hcached
  rw [hdaemon]
  exact h account cached hcached

/-- When the cache is current after a command. -/
theorem current_command_iff (env : DaemonEnv) (command : DaemonCommand) {p : Prefetcher}
    (hnamed : p.daemon.accounts.Named) (h : p.Current) :
    Current { p with daemon := (p.daemon.handleCommand env command).1 } ↔
      p.KeepsCurrent (.command env command) := by
  constructor
  · intro hcurrent account hcontains
    rw [Std.ExtTreeMap.contains_eq_isSome_getElem?] at hcontains
    obtain ⟨cached, hcached⟩ := isSome_iff_exists.1 hcontains
    rw [h account cached hcached, ← DaemonState.get_handleCommand env command hnamed]
    exact hcurrent account cached hcached
  · intro hkeeps account cached hcached
    have hcontains : p.modelCache.contains account = true := by
      rw [Std.ExtTreeMap.contains_eq_isSome_getElem?, hcached]
      rfl
    rw [DaemonState.get_handleCommand env command hnamed, hkeeps account hcontains]
    exact h account cached hcached

/-- When the cache is current after a result was taken. -/
theorem current_handleModelPrefetchResult_iff (r : PrefetchResult) {p : Prefetcher}
    (h : p.Current) :
    (p.handleModelPrefetchResult now r).Current ↔
      ∀ models, r.result = .ok models →
        ∀ provider, p.daemon.providers[r.account]? = some provider → provider = r.fetchedWith := by
  rw [handleModelPrefetchResult]
  cases hresult : r.result with
  | error e =>
    refine ⟨fun _ models hmodels => ?_, fun _ => current_congr rfl rfl h⟩
    cases hmodels
  | ok models =>
    dsimp only
    rw [Std.ExtTreeMap.contains_eq_isSome_getElem?]
    cases hprovider : p.daemon.providers[r.account]? with
    | none =>
      refine ⟨fun _ _ _ provider hsome => ?_, fun _ => current_congr rfl rfl h⟩
      cases hsome
    | some provider =>
      constructor
      · rintro hcurrent _ - _ ⟨⟩
        have hstored := hcurrent r.account ⟨models, now, r.fetchedWith⟩
          (by simp)
        exact some.inj (hprovider.symm.trans hstored)
      · intro hsame account cached hcached
        obtain rfl := hsame models rfl provider rfl
        change (p.modelCache.insert r.account _)[account]? = some cached at hcached
        rw [Std.ExtTreeMap.get_insert] at hcached
        split_ifs at hcached with haccount
        · cases hcached
          rw [haccount]
          exact hprovider
        · exact h account cached hcached

/-- Exactly which steps keep the cache current. -/
theorem step_current_iff {label : PrefetchLabel}
    (hnamed : p.daemon.accounts.Named) (h : p.Current) (hstep : step label p = some p') :
    p'.Current ↔ p.KeepsCurrent label := by
  cases label with
  | command env command =>
    cases hstep
    exact current_command_iff env command hnamed h
  | join account now spawned =>
    cases hstep
    obtain ⟨hdaemon, hcache⟩ := p.maybeSpawnModelPrefetch_same account now spawned
    exact ⟨fun _ => trivial, fun _ => current_congr hdaemon hcache h⟩
  | listModels account now spawned =>
    cases hstep
    obtain ⟨hdaemon, hcache⟩ := p.handleListModels_same account now spawned
    exact ⟨fun _ => trivial, fun _ => current_congr hdaemon hcache h⟩
  | fetched thread result =>
    rw [step] at hstep
    split at hstep
    · cases hstep
      exact ⟨fun _ => trivial, fun _ => h⟩
    · cases hstep
      exact ⟨fun _ => trivial, fun _ => h⟩
  | takeResult now =>
    rw [step] at hstep
    rw [KeepsCurrent]
    cases hresults : p.results with
    | nil =>
      rw [hresults] at hstep
      cases hstep
      simpa using h
    | cons r results =>
      rw [hresults] at hstep
      cases hstep
      have hcurrent : Current { p with results := results } := h
      rw [current_handleModelPrefetchResult_iff now r hcurrent]
      constructor
      · rintro hall _ models ⟨⟩
        exact hall models
      · intro hall models
        exact hall r models rfl
  | restart env =>
    cases hstep
    refine ⟨fun _ => trivial, fun _ account cached hcached => ?_⟩
    cases hcached

/-! ### Whole runs -/

theorem step_named {label : PrefetchLabel} (h : p.daemon.accounts.Named)
    (hstep : step label p = some p') : p'.daemon.accounts.Named := by
  cases label with
  | command env command =>
    cases hstep
    exact DaemonState.handleCommand_named env command h
  | join account now spawned =>
    cases hstep
    rw [(p.maybeSpawnModelPrefetch_same account now spawned).1]
    exact h
  | listModels account now spawned =>
    cases hstep
    rw [(p.handleListModels_same account now spawned).1]
    exact h
  | fetched thread result =>
    rw [step] at hstep
    split at hstep
    · cases hstep
      exact h
    · cases hstep
      exact h
  | takeResult now =>
    rw [step] at hstep
    split at hstep
    · cases hstep
      rw [handleModelPrefetchResult_daemon]
      exact h
    · cases hstep
      exact h
  | restart env =>
    cases hstep
    exact DaemonState.named_boot env _ _

theorem isSome_step (p : Prefetcher) : (step label p).isSome = true := by
  cases label with
  | fetched thread result | takeResult now =>
    rw [step]
    split <;> rfl
  | _ => rfl

/-- In a run of the daemon every cached model list was fetched with the provider that is registered
for its account in every state that is reached, if and only if every step of the run keeps it so. -/
theorem current_of_run_iff (env : DaemonEnv) (binding : Option Bytes)
    (blobs : Std.ExtTreeMap String Bytes) (labels : List PrefetchLabel) :
    (∀ before p, before <+: labels →
      StepSystem.run step before (boot env binding blobs) = some p → p.Current) ↔
    StepSystem.Along step (fun label p => p.KeepsCurrent label) labels
      (boot env binding blobs) := by
  have hboot : (boot env binding blobs).daemon.accounts.Named :=
    DaemonState.named_boot env binding blobs
  refine StepSystem.forall_prefix_iff_along_of (P := Current)
    (I := fun p => p.daemon.accounts.Named ∧ p.Current)
    (fun label p _ => isSome_step label p) (fun _ h => h.2)
    (fun _ _ _ h hstep => (step_current_iff h.1 h.2 hstep).1)
    (fun _ _ _ h hstep hkeeps =>
      ⟨step_named h.1 hstep, (step_current_iff h.1 h.2 hstep).2 hkeeps⟩)
    ⟨hboot, fun account cached hcached => ?_⟩
  cases hcached

/-- The accounts file after the endpoint of an account was edited. -/
def editedEnv : DaemonEnv :=
  { Sample.daemonEnv with
    readAccountsFile := fun _ =>
      .ok [{ name := "work", provider := "local", baseUrl := some "http://localhost:8080" }] }

def reconfigured : List PrefetchLabel :=
  [.command Sample.daemonEnv (.unlock Sample.key), .join "work" 0 true,
    .command editedEnv .accountsReload, .fetched 0 (.ok ["old-model"]), .takeResult 1]

/-- A model list that was fetched with an older configuration is stored. -/
theorem not_current_reconfigured :
    ¬∀ before p, before <+: reconfigured →
      StepSystem.run step before
        (boot Sample.daemonEnv (some Sample.key.reverse)
          (Std.ExtTreeMap.ofList [("work", Sample.key ++ [1])])) = some p → p.Current := by
  intro hall
  have hstale : (StepSystem.run step reconfigured
      (boot Sample.daemonEnv (some Sample.key.reverse)
        (Std.ExtTreeMap.ofList [("work", Sample.key ++ [1])]))).any (fun p =>
          p.modelCache["work"]?.any fun cached =>
            p.daemon.providers["work"]? ≠ some cached.fetchedWith) = true := by
    decide +kernel
  obtain ⟨p, hrun, hstale⟩ := (any_eq_true ..).1 hstale
  obtain ⟨cached, hcached, hne⟩ := (any_eq_true ..).1 hstale
  have hcurrent := hall _ p (List.prefix_refl _) hrun "work" cached hcached
  simp [hcurrent] at hne

end Prefetcher

end Choreo
