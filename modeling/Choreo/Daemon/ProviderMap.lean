import Choreo.Daemon.LockedState

/-!
# The providers of the accounts

An unlocked daemon keeps a provider for every configured account whose provider can be built from
the account's configuration and the API key that is held for it. The handlers maintain this map piece
by piece. They lose it where an account appears in a reload of the accounts file, where saving the
accounts fails after they were changed in memory, and where the last part of an unlock fails in a
daemon that is unlocked already.
-/

namespace Choreo

open List Option

/-- Every account is kept under its own name. -/
def AccountManager.Named (manager : AccountManager) : Prop :=
  ∀ (name : String) (config : AccountConfig), manager.accounts[name]? = some config →
    config.name = name

namespace DaemonState

section Built

variable (catalog : Catalog) (connect : ProviderClient → Option String)

/-- The provider that an account should have: the one that its configuration and the API key that is
held for it give, if they give one. -/
def built (d : DaemonState) (name : String) : Option InferenceProvider :=
  d.accounts.accounts[name]?.bind fun config =>
    (InferenceProvider.fromAccountConfig catalog connect config (d.apiKeyFor name)).toOption

/-- An unlocked daemon holds exactly the providers that its accounts should have. -/
def Matched (d : DaemonState) : Prop :=
  d.locked = false → ∀ name, d.providers[name]? = d.built catalog connect name

/-- Whether a provider can be built for a configuration with the API key that is held for it. -/
def buildable (d : DaemonState) (config : AccountConfig) : Bool :=
  (InferenceProvider.fromAccountConfig catalog connect config (d.apiKeyFor config.name)).toBool

/-- Whether a command gets to the last part of an unlock. -/
def reachesTail (env : DaemonEnv) (command : DaemonCommand) (d : DaemonState) : Bool :=
  match command with
  | .unlock key => d.acceptsKey env key
  | .bindKeystore key => d.acceptsBinding env key
  | .saveCredential _ blob key =>
    d.acceptsKey env key && (openBlob env key blob).toBool && env.writeBlob.isNone
  | _ => false

/-- Whether a command maintains the providers of an unlocked daemon: the last part of an unlock does
not fail; an account is added or removed and saved, or has no provider; and a reload brings no new
account for which a provider can be built. -/
def maintains (env : DaemonEnv) (command : DaemonCommand) (d : DaemonState) : Bool :=
  match command with
  | .addAccount config =>
    env.saveAccounts.isNone || d.accounts.accounts.contains config.name ||
      !config.validate.toBool || !d.buildable catalog connect config
  | .removeAccount name => env.saveAccounts.isNone || !d.providers.contains name
  | .accountsReload =>
    match d.accounts.configPath with
    | none => true
    | some path =>
      match AccountManager.load env path with
      | .error _ => true
      | .ok fresh =>
        fresh.allConfigs.all fun config =>
          d.accounts.accounts.contains config.name || !d.buildable catalog connect config
  | command => !d.reachesTail env command || !env.unlockFails

/-- The condition on the steps: the catalog and the setup of HTTP clients stay the same, and a
command to an unlocked daemon maintains its providers. -/
def Maintains (label : DaemonLabel) (d : DaemonState) : Prop :=
  match label with
  | .restart _ => True
  | .command env command =>
    env.catalog = catalog ∧ env.connect = connect ∧
      (d.locked = false → d.maintains catalog connect env command = true)

end Built

/-! ### Building providers -/

section Handlers

variable {catalog : Catalog} {connect : ProviderClient → Option String} {d d' : DaemonState}

theorem built_congr (haccounts : d'.accounts = d.accounts)
    (hcredentials : d'.credentials = d.credentials) (name : String) :
    d'.built catalog connect name = d.built catalog connect name := by
  rw [built, built, apiKeyFor, apiKeyFor, haccounts, hcredentials]

variable {d : DaemonState} {name : String}

theorem built_of_account_none
    (h : d.accounts.accounts[name]? = none) : d.built catalog connect name = none := by
  rw [built, h]
  rfl

variable {config : AccountConfig}

theorem built_of_not_buildable
    (haccount : d.accounts.accounts[name]? = some config) (hname : config.name = name)
    (h : d.buildable catalog connect config = false) : d.built catalog connect name = none := by
  rw [built, haccount, bind_some, ← hname]
  rw [buildable] at h
  cases hbuild : InferenceProvider.fromAccountConfig catalog connect config
      (d.apiKeyFor config.name) with
  | error e => rfl
  | ok provider =>
    rw [hbuild] at h
    cases h

theorem built_of_apiKey_none (h : d.apiKeyFor name = none) :
    d.built catalog connect name = none := by
  rw [built, h]
  cases d.accounts.accounts[name]? with
  | none => rfl
  | some config =>
    cases hbuild : InferenceProvider.fromAccountConfig catalog connect config none with
    | error e => simp [hbuild, Except.toOption]
    | ok provider => cases InferenceProvider.fromAccountConfig_apiKey hbuild

theorem get_resolveAccountProvider {env : DaemonEnv} (hcatalog : env.catalog = catalog)
    (hconnect : env.connect = connect) (d : DaemonState) (name k : String) :
    (d.resolveAccountProvider env name (d.apiKeyFor name)).providers[k]? =
      if k = name then (d.built catalog connect name).or d.providers[name]?
      else d.providers[k]? := by
  rw [resolveAccountProvider, built, hcatalog, hconnect]
  cases d.accounts.accounts[name]? with
  | none =>
    split_ifs with hk
    · rw [hk]
      rfl
    · rfl
  | some config =>
    rw [bind_some]
    cases hbuild : InferenceProvider.fromAccountConfig catalog connect config
        (d.apiKeyFor name) with
    | error e =>
      simp only [hbuild]
      split_ifs with hk
      · rw [hk]
        rfl
      · rfl
    | ok provider =>
      simp only [hbuild]
      rw [Std.ExtTreeMap.get_insert]
      rfl

variable (env : DaemonEnv)

theorem resolveAccountProvider_accounts (name : String) (apiKey : Option String)
    (d : DaemonState) :
    (d.resolveAccountProvider env name apiKey).accounts = d.accounts ∧
      (d.resolveAccountProvider env name apiKey).credentials = d.credentials := by
  rw [resolveAccountProvider]
  split
  · exact ⟨rfl, rfl⟩
  · split <;> exact ⟨rfl, rfl⟩

/-- A loop over accounts that sets the provider of each to a combination of what it should be and
what it was. -/
theorem foldl_providers (f : Option InferenceProvider → Option InferenceProvider →
      Option InferenceProvider) (hf : ∀ a b, f a (f a b) = f a b)
    (body : DaemonState → AccountConfig → DaemonState)
    (haccounts : ∀ d config, (body d config).accounts = d.accounts)
    (hcredentials : ∀ d config, (body d config).credentials = d.credentials)
    (hget : ∀ d config k, (body d config).providers[k]? =
      if k = config.name then f (d.built catalog connect k) d.providers[k]? else d.providers[k]?)
    (configs : List AccountConfig) : ∀ d : DaemonState,
    (configs.foldl body d).accounts = d.accounts ∧
      (configs.foldl body d).credentials = d.credentials ∧
      ∀ k, (configs.foldl body d).providers[k]? =
        if k ∈ configs.map AccountConfig.name then f (d.built catalog connect k) d.providers[k]?
        else d.providers[k]? := by
  induction configs with
  | nil => exact fun d => ⟨rfl, rfl, fun k => rfl⟩
  | cons config configs ih =>
    intro d
    obtain ⟨ha, hc, hp⟩ := ih (body d config)
    refine ⟨ha.trans (haccounts d config), hc.trans (hcredentials d config), fun k => ?_⟩
    rw [foldl_cons, hp k, built_congr (haccounts d config) (hcredentials d config), hget]
    by_cases hk : k = config.name
    · subst hk
      simp [hf]
    · simp [hk]

variable {manager : AccountManager}

/-! ### Accounts -/

theorem mem_map_name_filter (hnamed : manager.Named)
    (test : AccountConfig → Bool) (name : String) :
    name ∈ (manager.allConfigs.filter test).map AccountConfig.name ↔
      ∃ config, manager.accounts[name]? = some config ∧ test config = true := by
  rw [AccountManager.allConfigs, List.mem_map]
  constructor
  · rintro ⟨config, hmem, rfl⟩
    obtain ⟨hmem, htest⟩ := mem_filter.1 hmem
    obtain ⟨name, hname⟩ := Std.ExtTreeMap.mem_values_iff.1 hmem
    exact ⟨config, by rw [hnamed name config hname]; exact hname, htest⟩
  · rintro ⟨config, hconfig, htest⟩
    exact ⟨config, mem_filter.2 ⟨Std.ExtTreeMap.mem_values_iff.2 ⟨name, hconfig⟩, htest⟩,
      hnamed name config hconfig⟩

theorem mem_map_name_allConfigs (hnamed : manager.Named)
    (name : String) :
    name ∈ manager.allConfigs.map AccountConfig.name ↔
      ∃ config, manager.accounts[name]? = some config := by
  simpa using mem_map_name_filter hnamed (fun _ => true) name

theorem named_insert (hnamed : manager.Named) (config : AccountConfig) :
    AccountManager.Named
      { manager with accounts := manager.accounts.insert config.name config } := by
  intro name c hc
  simp only [Std.ExtTreeMap.get_insert] at hc
  split_ifs at hc with hname
  · cases hc
    exact hname.symm
  · exact hnamed name c hc

theorem named_erase (hnamed : manager.Named) (name : String) :
    AccountManager.Named { manager with accounts := manager.accounts.erase name } := by
  intro k c hc
  simp only [Std.ExtTreeMap.get_erase] at hc
  split_ifs at hc
  exact hnamed k c hc

theorem named_foldl_insert (path : Option PathBuf) (configs : List AccountConfig) :
    ∀ m : Std.ExtTreeMap String AccountConfig, AccountManager.Named ⟨path, m⟩ →
      AccountManager.Named
        ⟨path, configs.foldl (fun m config => m.insert config.name config) m⟩ := by
  induction configs with
  | nil => exact fun m h => h
  | cons config configs ih => exact fun m h => ih _ (named_insert h config)

theorem named_load {env : DaemonEnv} {path : PathBuf}
    (h : AccountManager.load env path = .ok manager) : manager.Named := by
  rw [AccountManager.load] at h
  cases hread : env.readAccountsFile path with
  | error e =>
    rw [hread] at h
    cases h
  | ok configs =>
    rw [hread] at h
    change (configs.forM AccountConfig.validate >>= fun _ => _) = _ at h
    cases hvalid : configs.forM AccountConfig.validate with
    | error e =>
      rw [hvalid] at h
      cases h
    | ok _ =>
      rw [hvalid] at h
      cases h
      refine named_foldl_insert _ configs ∅ fun name config hconfig => ?_
      cases hconfig

theorem named_add (config : AccountConfig)
    (hnamed : manager.Named) : (manager.add env config).1.Named := by
  rw [AccountManager.add]
  split
  · exact hnamed
  · split_ifs
    · exact hnamed
    · exact named_insert hnamed config

/-! ### The last part of an unlock -/

def Sound (catalog : Catalog) (connect : ProviderClient → Option String) (d : DaemonState) : Prop :=
  d.accounts.Named ∧ d.Matched catalog connect

theorem sound_of_locked (hnamed : d.accounts.Named) (h : d.locked = true) :
    d.Sound catalog connect :=
  ⟨hnamed, fun hopen => by rw [h] at hopen; cases hopen⟩

section Env

variable {env : DaemonEnv} (hcatalog : env.catalog = catalog) (hconnect : env.connect = connect)
include hcatalog hconnect

/-- The accounts that an unlock loads get their providers. -/
theorem takeAccounts_spec {accounts : AccountManager} (hnamed : accounts.Named) (d : DaemonState) :
    (d.takeAccounts env accounts).accounts.Named ∧
      ∀ name, (d.takeAccounts env accounts).providers[name]? =
        (d.takeAccounts env accounts).built catalog connect name := by
  rw [takeAccounts]
  generalize haccounts' : (if accounts.accounts.isEmpty && d.credentials.contains "openai" then
    (accounts.add env (simpleAccount "default" "openai")).1 else accounts) = accounts'
  have hnamed' : accounts'.Named := by
    rw [← haccounts']
    split_ifs
    · exact named_add env _ hnamed
    · exact hnamed
  obtain ⟨ha, hc, hp⟩ := @foldl_providers catalog connect Option.or
    (by rintro (_ | a) b <;> rfl)
    (fun d config => d.resolveAccountProvider env config.name (d.apiKeyFor config.name))
    (fun d config => (resolveAccountProvider_accounts env _ _ d).1)
    (fun d config => (resolveAccountProvider_accounts env _ _ d).2)
    (fun d config k => by
      rw [get_resolveAccountProvider hcatalog hconnect]
      split_ifs with hk
      · rw [hk]
      · rfl)
    accounts'.allConfigs { d with accounts := accounts', providers := ∅ }
  refine ⟨by rw [ha]; exact hnamed', fun name => ?_⟩
  rw [hp name, built_congr ha hc]
  split_ifs with hmem
  · simp
  · rw [mem_map_name_allConfigs hnamed'] at hmem
    rw [built_of_account_none (eq_none_iff_forall_ne_some.2 fun config hconfig =>
      hmem ⟨config, hconfig⟩)]
    rfl

/-- An unlock that succeeds builds the whole map. -/
theorem unlockTail_sound (key : Bytes) (d : DaemonState)
    (h : env.unlockFails = false ∨ (d.locked = true ∧ d.accounts.Named)) :
    (d.unlockTail env key).1.Sound catalog connect := by
  rw [unlockTail]
  rw [DaemonEnv.unlockFails] at h
  cases hread : env.readBlobs with
  | some e =>
    rw [hread] at h
    obtain h | ⟨hlocked, hnamed⟩ := h
    · cases h
    · exact sound_of_locked hnamed hlocked
  | none =>
    cases hpath : env.accountsConfigPath with
    | error e =>
      rw [hread, hpath] at h
      obtain h | ⟨hlocked, hnamed⟩ := h
      · cases h
      · exact sound_of_locked hnamed hlocked
    | ok path =>
      dsimp only
      cases hload : AccountManager.load env path with
      | error e =>
        rw [hread, hpath] at h
        obtain h | ⟨hlocked, hnamed⟩ := h
        · simp [hload] at h
        · exact sound_of_locked hnamed hlocked
      | ok accounts =>
        obtain ⟨hnamed, hget⟩ := takeAccounts_spec hcatalog hconnect (named_load hload)
          (d.takeCredentials (d.decryptAll env key))
        exact ⟨hnamed, fun _ => hget⟩

end Env

/-- What a command that can unlock the daemon does: nothing, or it gets to the last part of an
unlock with the accounts and the lock as they are. -/
def EndsInTail (command : DaemonCommand) (d d' : DaemonState) : Prop :=
  d'.accounts = d.accounts ∧ d'.credentials = d.credentials ∧ d'.providers = d.providers ∧
      d'.locked = d.locked ∨
    d.reachesTail env command = true ∧
      ∃ (key : Bytes) (d₁ : DaemonState), d₁.accounts = d.accounts ∧ d₁.locked = d.locked ∧
        d' = (d₁.unlockTail env key).1

theorem handleUnlock_endsInTail (key : Bytes) (d : DaemonState) :
    EndsInTail env (.unlock key) d (d.handleUnlock env key).1 := by
  simp only [handleUnlock, announceUnlock_fst, handleUnlockInner, zeroizedKeyOrWipe]
  by_cases hlength : key.length = 32
  · rw [if_pos hlength]
    dsimp only
    cases hverify : d.verifyKeystoreBinding env key with
    | error e => exact Or.inl ⟨rfl, rfl, rfl, rfl⟩
    | ok _ =>
      refine Or.inr ⟨?_, key, d, rfl, rfl, rfl⟩
      simp [reachesTail, acceptsKey, hlength, hverify, Except.toBool]
  · rw [if_neg hlength]
    exact Or.inl ⟨rfl, rfl, rfl, rfl⟩

theorem handleBindKeystore_endsInTail (key : Bytes) (d : DaemonState) :
    EndsInTail env (.bindKeystore key) d (d.handleBindKeystore env key).1 := by
  simp only [handleBindKeystore, announceUnlock_fst, handleBindKeystoreInner, zeroizedKeyOrWipe]
  by_cases hlength : key.length = 32
  · rw [if_pos hlength]
    dsimp only
    cases hbind : d.bindKeystore env key with
    | mk d₁ result =>
      cases result with
      | error e =>
        rw [bindKeystore_error hbind]
        exact Or.inl ⟨rfl, rfl, rfl, rfl⟩
      | ok _ =>
        obtain ⟨-, honly, -⟩ := bindKeystore_ok hbind
        refine Or.inr ⟨?_, key, d₁, by rw [honly], by rw [honly], rfl⟩
        simp [reachesTail, acceptsBinding, hlength, hbind, Except.toBool]
  · rw [if_neg hlength]
    exact Or.inl ⟨rfl, rfl, rfl, rfl⟩

variable (service : String)

theorem takeSaved_accounts (credential : ServiceCredential)
    (d : DaemonState) : (d.takeSaved env service credential).accounts = d.accounts := by
  rw [takeSaved]
  split
  · rw [(resolveAccountProvider_accounts env _ _ _).1]
    split_ifs <;> rfl
  · split_ifs <;> rfl

theorem handleSaveCredential_endsInTail (blob key : Bytes)
    (d : DaemonState) :
    EndsInTail env (.saveCredential service blob key) d
      (d.handleSaveCredential env service blob key).1 := by
  have hsame : EndsInTail env (.saveCredential service blob key) d d :=
    Or.inl ⟨rfl, rfl, rfl, rfl⟩
  rw [handleSaveCredential]
  dsimp only
  split_ifs with hlength
  · exact hsame
  split
  · exact hsame
  · exact hsame
  next hverify =>
  split
  · exact hsame
  next plaintext hdecrypt =>
  split
  · exact hsame
  next credential hdecode =>
  split
  · exact hsame
  next hwrite =>
  set d₁ : DaemonState := { d with blobs := d.blobs.insert service blob }
  have hreaches : d.reachesTail env (.saveCredential service blob key) = true := by
    have hopen : openBlob env key blob = .ok credential := by
      rw [openBlob, hdecrypt]
      exact hdecode
    simp [reachesTail, acceptsKey, not_not.1 hlength, hverify, hopen, hwrite, Except.toBool]
  refine Or.inr ⟨hreaches, key, d₁.takeSaved env service credential, ?_, ?_, ?_⟩
  · rw [takeSaved_accounts]
  · rw [(d₁.takeSaved_same env service credential).1]
  · split
    · next heq => rw [heq]
    · next heq => rw [heq]

theorem sound_of_endsInTail {env : DaemonEnv} (hcatalog : env.catalog = catalog)
    (hconnect : env.connect = connect) {command : DaemonCommand}
    (hends : EndsInTail env command d d') (h : d.Sound catalog connect)
    (hfails : d.locked = false → d.reachesTail env command = true → env.unlockFails = false) :
    d'.Sound catalog connect := by
  obtain ⟨haccounts, hcredentials, hproviders, hlocked⟩ |
    ⟨hreaches, key, d₁, haccounts, hlocked, rfl⟩ := hends
  · refine ⟨by rw [haccounts]; exact h.1, fun hopen name => ?_⟩
    rw [hproviders, built_congr haccounts hcredentials]
    exact h.2 (hlocked.symm.trans hopen) name
  · refine unlockTail_sound hcatalog hconnect key d₁ ?_
    cases hlock : d.locked with
    | false => exact Or.inl (hfails hlock hreaches)
    | true => exact Or.inr ⟨hlocked.trans hlock, by rw [haccounts]; exact h.1⟩

/-! ### The other commands -/

theorem handleRemoveCredential_sound
    (h : d.Sound catalog connect) :
    (d.handleRemoveCredential env service).1.Sound catalog connect := by
  rw [handleRemoveCredential]
  split
  · exact h
  · refine ⟨h.1, fun hopen name => ?_⟩
    have hbefore := h.2 hopen name
    simp only [Std.ExtTreeMap.get_erase]
    by_cases hname : name = service
    · rw [if_pos hname, built_of_apiKey_none]
      rw [apiKeyFor]
      simp [hname]
    · rw [if_neg hname, hbefore, built, built, apiKeyFor, apiKeyFor]
      simp [Std.ExtTreeMap.get_erase, hname]

theorem apiKeyFor_congr (h : d'.credentials = d.credentials) (name : String) :
    d'.apiKeyFor name = d.apiKeyFor name := by
  rw [apiKeyFor, apiKeyFor, h]

theorem built_insert_of_ne
    (hname : name ≠ config.name) :
    ({ d with accounts := { d.accounts with
        accounts := d.accounts.accounts.insert config.name config } } : DaemonState).built
      catalog connect name = d.built catalog connect name := by
  rw [built, built]
  simp only [Std.ExtTreeMap.get_insert, if_neg hname]
  rfl

theorem handleAddAccount_sound {env : DaemonEnv} (hcatalog : env.catalog = catalog)
    (hconnect : env.connect = connect) (config : AccountConfig)
    (h : d.Sound catalog connect)
    (hmaintains : d.locked = false → d.maintains catalog connect env (.addAccount config) = true) :
    (d.handleAddAccount env config).1.Sound catalog connect := by
  rw [handleAddAccount, AccountManager.add]
  cases hvalid : config.validate with
  | error e => exact h
  | ok _ =>
    by_cases hcontains : d.accounts.accounts.contains config.name = true
    · simp only [if_pos hcontains]
      exact h
    · simp only [if_neg hcontains]
      have habsent : d.accounts.accounts[config.name]? = none :=
        Std.ExtTreeMap.getElem?_eq_none_of_contains_eq_false (Bool.not_eq_true _ ▸ hcontains)
      have hnone : d.locked = false → d.providers[config.name]? = none := fun hopen =>
        (h.2 hopen config.name).trans (built_of_account_none habsent)
      set d₁ : DaemonState := { d with accounts := { d.accounts with
        accounts := d.accounts.accounts.insert config.name config } } with hd₁
      have haccount : d₁.accounts.accounts[config.name]? = some config := by
        rw [hd₁]
        simp
      have hother : ∀ k, k ≠ config.name → d.locked = false →
          d₁.providers[k]? = d₁.built catalog connect k := fun k hk hopen =>
        (h.2 hopen k).trans (built_insert_of_ne hk).symm
      have hnamed : d₁.accounts.Named := named_insert h.1 config
      rw [AccountManager.save]
      cases hsave : env.saveAccounts with
      | some e =>
        refine ⟨hnamed, fun hopen k => ?_⟩
        by_cases hk : k = config.name
        · have hno : d.buildable catalog connect config = false := by
            simpa [maintains, hsave, hcontains, hvalid, Except.toBool] using hmaintains hopen
          rw [hk]
          exact (hnone hopen).trans (built_of_not_buildable haccount rfl hno).symm
        · exact hother k hk hopen
      | none =>
        dsimp only
        cases hkey : d₁.apiKeyFor config.name with
        | none =>
          refine ⟨hnamed, fun hopen k => ?_⟩
          by_cases hk : k = config.name
          · rw [hk, built_of_apiKey_none hkey]
            exact hnone hopen
          · exact hother k hk hopen
        | some key =>
          obtain ⟨ha, hc⟩ := resolveAccountProvider_accounts env config.name (some key) d₁
          refine ⟨by rw [ha]; exact hnamed, fun hopen k => ?_⟩
          rw [resolveAccountProvider_locked] at hopen
          have hget := get_resolveAccountProvider hcatalog hconnect d₁ config.name k
          rw [hkey] at hget
          rw [hget, built_congr ha hc]
          split_ifs with hk
          · have hempty : d₁.providers[config.name]? = none := hnone hopen
            rw [hempty, hk, or_none]
          · exact hother k hk hopen

theorem handleRemoveAccount_sound (name : String)
    (h : d.Sound catalog connect)
    (hmaintains : d.locked = false → d.maintains catalog connect env (.removeAccount name) = true) :
    (d.handleRemoveAccount env name).1.Sound catalog connect := by
  have hget : ∀ k, (d.accounts.accounts.erase name)[k]? =
      if k = name then none else d.accounts.accounts[k]? := fun k => Std.ExtTreeMap.get_erase _ _ _
  have hbuilt : ∀ k, ({ d with accounts := { d.accounts with
      accounts := d.accounts.accounts.erase name } } : DaemonState).built catalog connect k =
      if k = name then none else d.built catalog connect k := by
    intro k
    rw [built, hget]
    split_ifs with hk
    · rfl
    · rfl
  rw [handleRemoveAccount, AccountManager.remove]
  by_cases hcontains : d.accounts.accounts.contains name = true
  · rw [if_pos hcontains, AccountManager.save]
    cases hsave : env.saveAccounts with
    | some e =>
      refine ⟨named_erase h.1 name, fun hopen k => ?_⟩
      have hno : d.providers.contains name = false := by
        simpa [maintains, hsave] using hmaintains hopen
      refine Eq.trans ?_ (hbuilt k).symm
      split_ifs with hk
      · rw [hk]
        exact Std.ExtTreeMap.getElem?_eq_none_of_contains_eq_false hno
      · exact h.2 hopen k
    | none =>
      refine ⟨named_erase h.1 name, fun hopen k => ?_⟩
      refine Eq.trans (Std.ExtTreeMap.get_erase _ _ _) (Eq.trans ?_ (hbuilt k).symm)
      split_ifs
      · rfl
      · exact h.2 hopen k
  · rw [if_neg hcontains]
    exact h

theorem foldl_erase_providers (configs : List AccountConfig) :
    ∀ (m : Std.ExtTreeMap String InferenceProvider) (k : String),
      (configs.foldl (fun m config => m.erase config.name) m)[k]? =
        if k ∈ configs.map AccountConfig.name then none else m[k]? := by
  induction configs with
  | nil => exact fun m k => rfl
  | cons config configs ih =>
    intro m k
    rw [foldl_cons, ih, Std.ExtTreeMap.get_erase]
    by_cases hk : k = config.name
    · simp [hk]
    · simp [hk]

variable (fresh : AccountManager)

/-- Whether a reload removes an account. -/
def goneIn (config : AccountConfig) : Bool :=
  !fresh.accounts.contains config.name

def changedIn (config : AccountConfig) : Bool :=
  match fresh.accounts[config.name]? with
  | some new => new ≠ config
  | none => false

theorem reloadAccounts_eq (d : DaemonState) :
    d.reloadAccounts env fresh =
      (d.accounts.allConfigs.filter (changedIn fresh)).foldl (fun d config =>
        ({ d with providers := d.providers.erase config.name } : DaemonState).resolveAccountProvider
          env config.name (d.apiKeyFor config.name))
        { d with
          providers := (d.accounts.allConfigs.filter (goneIn fresh)).foldl
            (fun m config => m.erase config.name) d.providers
          accounts := fresh } := rfl

theorem get_reloadAccounts {env : DaemonEnv} (hcatalog : env.catalog = catalog)
    (hconnect : env.connect = connect) (fresh : AccountManager) (d : DaemonState) :
    (d.reloadAccounts env fresh).accounts = fresh ∧
      (d.reloadAccounts env fresh).credentials = d.credentials ∧
      ∀ k, (d.reloadAccounts env fresh).providers[k]? =
        if k ∈ (d.accounts.allConfigs.filter (changedIn fresh)).map AccountConfig.name then
          (d.reloadAccounts env fresh).built catalog connect k
        else if k ∈ (d.accounts.allConfigs.filter (goneIn fresh)).map AccountConfig.name then none
        else d.providers[k]? := by
  rw [reloadAccounts_eq]
  set d₁ : DaemonState := { d with
    providers := (d.accounts.allConfigs.filter (goneIn fresh)).foldl
      (fun m config => m.erase config.name) d.providers
    accounts := fresh }
  obtain ⟨ha, hc, hp⟩ := @foldl_providers catalog connect (fun a _ => a) (fun _ _ => rfl)
    (fun d config =>
      ({ d with providers := d.providers.erase config.name } : DaemonState).resolveAccountProvider
        env config.name (d.apiKeyFor config.name))
    (fun d config => (resolveAccountProvider_accounts env _ _ _).1)
    (fun d config => (resolveAccountProvider_accounts env _ _ _).2)
    (fun d config k => by
      have hget := get_resolveAccountProvider hcatalog hconnect
        ({ d with providers := d.providers.erase config.name } : DaemonState) config.name k
      refine hget.trans ?_
      simp only [Std.ExtTreeMap.get_erase]
      split_ifs with hk
      · rw [hk, or_none]
        exact built_congr rfl rfl _
      · rfl)
    (d.accounts.allConfigs.filter (changedIn fresh)) d₁
  refine ⟨ha, hc, fun k => ?_⟩
  rw [hp k, built_congr ha hc]
  split_ifs with hchanged hremoved
  · rfl
  · exact (foldl_erase_providers _ d.providers k).trans (if_pos hremoved)
  · exact (foldl_erase_providers _ d.providers k).trans (if_neg hremoved)

theorem get_of_unchanged {fresh : AccountManager}
    (hname : config.name = name) (hchanged : ¬changedIn fresh config = true)
    (hgone : ¬goneIn fresh config = true) : fresh.accounts[name]? = some config := by
  rw [changedIn, hname] at hchanged
  cases hfresh : fresh.accounts[name]? with
  | none =>
    refine absurd ?_ hgone
    rw [goneIn, hname, Std.ExtTreeMap.contains_eq_isSome_getElem?, hfresh]
    rfl
  | some new =>
    rw [hfresh] at hchanged
    simpa using hchanged

theorem built_new_none {env : DaemonEnv} {path : PathBuf} {fresh : AccountManager}
    (hmaintains : d.maintains catalog connect env .accountsReload = true)
    (hpath : d.accounts.configPath = some path) (hload : AccountManager.load env path = .ok fresh)
    (hnamed : fresh.Named) (hnew : d.accounts.accounts[name]? = none) :
    (fresh.accounts[name]?.bind fun config =>
      (InferenceProvider.fromAccountConfig catalog connect config (d.apiKeyFor name)).toOption) =
      none := by
  cases hfresh : fresh.accounts[name]? with
  | none => rfl
  | some config =>
    have hname := hnamed name config hfresh
    simp only [maintains, hpath, hload, List.all_eq_true] at hmaintains
    have hmem : config ∈ fresh.allConfigs := Std.ExtTreeMap.mem_values_iff.2 ⟨name, hfresh⟩
    have hnot := hmaintains config hmem
    have hcontains : d.accounts.accounts.contains config.name = false := by
      rw [hname, Std.ExtTreeMap.contains_eq_isSome_getElem?, hnew]
      rfl
    rw [hcontains, Bool.false_or, buildable, hname] at hnot
    rw [bind_some]
    cases hbuild : InferenceProvider.fromAccountConfig catalog connect config
        (d.apiKeyFor name) with
    | error e => rfl
    | ok provider =>
      rw [hbuild] at hnot
      cases hnot

theorem handleAccountsReload_sound {env : DaemonEnv} (hcatalog : env.catalog = catalog)
    (hconnect : env.connect = connect) (h : d.Sound catalog connect)
    (hmaintains : d.locked = false → d.maintains catalog connect env .accountsReload = true) :
    (d.handleAccountsReload env).1.Sound catalog connect := by
  rw [handleAccountsReload]
  cases hpath : d.accounts.configPath with
  | none => exact h
  | some path =>
    dsimp only
    cases hload : AccountManager.load env path with
    | error e => exact h
    | ok fresh =>
      dsimp only
      split_ifs
      · exact h
      · have hnamed := named_load hload
        obtain ⟨ha, hc, hp⟩ := get_reloadAccounts hcatalog hconnect fresh d
        refine ⟨by rw [ha]; exact hnamed, fun hopen k => ?_⟩
        have hopen' : d.locked = false := by
          change (d.reloadAccounts env fresh).locked = false at hopen
          rw [reloadAccounts_eq, foldl_rebuild_locked] at hopen
          exact hopen
        have hbefore := h.2 hopen' k
        have hafter : (d.reloadAccounts env fresh).built catalog connect k =
            fresh.accounts[k]?.bind fun config =>
              (InferenceProvider.fromAccountConfig catalog connect config
                (d.apiKeyFor k)).toOption := by
          rw [built, ha, apiKeyFor_congr hc]
        rw [hp k]
        split_ifs with hchanged hgone
        · rfl
        · obtain ⟨config, hconfig, hgone⟩ := (mem_map_name_filter h.1 _ _).1 hgone
          have hnone : fresh.accounts[k]? = none := by
            rw [goneIn, h.1 k config hconfig] at hgone
            exact Std.ExtTreeMap.getElem?_eq_none_of_contains_eq_false (by simpa using hgone)
          rw [hafter, hnone]
          rfl
        · rw [mem_map_name_filter h.1] at hchanged hgone
          rw [hbefore, hafter, built]
          cases hold : d.accounts.accounts[k]? with
          | none =>
            refine (built_new_none (hmaintains hopen') hpath hload hnamed hold).symm
          | some config =>
            rw [get_of_unchanged (h.1 k config hold) (fun hc => hchanged ⟨config, hold, hc⟩)
              (fun hg => hgone ⟨config, hold, hg⟩)]

/-! ### Whole runs -/

theorem named_boot (binding : Option Bytes)
    (blobs : Std.ExtTreeMap String Bytes) : (boot env binding blobs).accounts.Named := by
  have hempty : AccountManager.Named {} := fun name config h => by cases h
  rw [boot]
  cases env.accountsConfigPath with
  | error e => exact hempty
  | ok path =>
    dsimp only
    cases hload : AccountManager.load env path with
    | error e => exact hempty
    | ok accounts => exact named_load hload

theorem boot_sound (binding : Option Bytes)
    (blobs : Std.ExtTreeMap String Bytes) : (boot env binding blobs).Sound catalog connect :=
  sound_of_locked (named_boot env binding blobs) rfl

/-- A step that meets the condition keeps the map. -/
theorem step_sound {label : DaemonLabel}
    (hmaintains : d.Maintains catalog connect label) (h : d.Sound catalog connect)
    (hstep : step label d = some d') : d'.Sound catalog connect := by
  cases label with
  | restart env =>
    cases hstep
    exact boot_sound env d.binding d.blobs
  | command env command =>
    cases hstep
    obtain ⟨hcatalog, hconnect, hmaintains⟩ := hmaintains
    have hfails : d.maintains catalog connect env command =
          (!d.reachesTail env command || !env.unlockFails) →
        d.locked = false → d.reachesTail env command = true → env.unlockFails = false := by
      intro heq hopen hreaches
      simpa [heq, hreaches] using hmaintains hopen
    cases command with
    | unlock key =>
      exact sound_of_endsInTail hcatalog hconnect (handleUnlock_endsInTail env key d) h (hfails rfl)
    | bindKeystore key =>
      exact sound_of_endsInTail hcatalog hconnect (handleBindKeystore_endsInTail env key d) h
        (hfails rfl)
    | saveCredential service blob key =>
      exact sound_of_endsInTail hcatalog hconnect
        (handleSaveCredential_endsInTail env service blob key d) h (hfails rfl)
    | lock => exact sound_of_locked h.1 rfl
    | removeCredential service => exact handleRemoveCredential_sound env service h
    | addAccount config => exact handleAddAccount_sound hcatalog hconnect config h hmaintains
    | removeAccount name => exact handleRemoveAccount_sound env name h hmaintains
    | accountsReload => exact handleAccountsReload_sound hcatalog hconnect h hmaintains

end Handlers

/-- In every run whose commands maintain the providers, an unlocked daemon holds exactly the
providers that its accounts should have. -/
theorem matched_of_run {catalog : Catalog} {connect : ProviderClient → Option String}
    {env : DaemonEnv} {binding : Option Bytes} {blobs : Std.ExtTreeMap String Bytes}
    {labels : List DaemonLabel} {d : DaemonState}
    (hmaintains : StepSystem.Along step (fun label d => d.Maintains catalog connect label) labels
      (boot env binding blobs))
    (hrun : StepSystem.run step labels (boot env binding blobs) = some d) :
    d.Matched catalog connect :=
  (StepSystem.invariant_of_along (I := Sound catalog connect)
    (fun _ _ _ hG h hstep => step_sound hG h hstep) (boot_sound env binding blobs) hmaintains
    hrun).2

def unlockAndReload : List DaemonLabel :=
  [.command Sample.daemonEnv (.unlock Sample.key),
    .command Sample.daemonEnv (.removeCredential "home"),
    .command Sample.daemonEnv .accountsReload]

/-- The one account with a credential has its provider after an unlock. -/
theorem matched_unlockAndReload :
    ∃ d, StepSystem.run step unlockAndReload
        (boot Sample.daemonEnv (some Sample.key.reverse)
          (Std.ExtTreeMap.ofList [("work", Sample.key ++ [1])])) = some d ∧
      d.locked = false ∧ d.providers.contains "work" = true ∧
      d.Matched Sample.daemonEnv.catalog Sample.daemonEnv.connect := by
  refine ⟨_, rfl, by decide +kernel, by decide +kernel,
    @matched_of_run _ _ _ _ _ unlockAndReload _ ?_ rfl⟩
  exact ⟨⟨rfl, rfl, fun _ => by decide⟩, ⟨rfl, rfl, fun _ => by decide⟩,
    ⟨rfl, rfl, fun _ => by decide +kernel⟩, trivial⟩

/-- The accounts file before the account with the credential was added. -/
def earlierEnv : DaemonEnv :=
  { Sample.daemonEnv with readAccountsFile := fun _ => .ok [simpleAccount "home" "local"] }

/-- An account that is added to the file while the daemon is unlocked gets no provider, although its
credential is held. -/
theorem not_matched_reloadedAccount :
    ∃ d, StepSystem.run step
        [.command earlierEnv (.unlock Sample.key), .command Sample.daemonEnv .accountsReload]
        (boot earlierEnv (some Sample.key.reverse)
          (Std.ExtTreeMap.ofList [("work", Sample.key ++ [1])])) = some d ∧
      ¬d.Matched Sample.daemonEnv.catalog Sample.daemonEnv.connect := by
  refine ⟨_, rfl, fun h => ?_⟩
  have hwork := h (by decide +kernel) "work"
  revert hwork
  decide +kernel

end DaemonState

end Choreo
