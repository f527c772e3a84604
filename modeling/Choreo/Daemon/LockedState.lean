import Choreo.Daemon.Binding

/-!
# What a locked daemon holds

A locked daemon should hold no credential and no provider. An unlock decrypts the credentials into
memory before it loads the accounts, and a credential that is saved is used before the unlock that
follows; when loading the accounts fails then, the daemon stays locked with what it holds by then.
No other command breaks the invariant.
-/

namespace Choreo

namespace DaemonState

/-- Neither credentials nor providers are held. -/
def IsWiped (d : DaemonState) : Prop :=
  d.credentials = ∅ ∧ d.providers = ∅ ∧ d.xCredentials = none

/-- A locked daemon holds neither credentials nor providers. -/
def Wiped (d : DaemonState) : Prop := d.locked = true → d.IsWiped

variable (env : DaemonEnv) (key : Bytes)

/-- Whether the key of an unlock has the right length and matches the binding. -/
def acceptsKey (d : DaemonState) : Bool :=
  key.length = 32 && (d.verifyKeystoreBinding env key).toBool

def acceptsBinding (d : DaemonState) : Bool :=
  key.length = 32 && (d.bindKeystore env key).2.toBool

/-- Whether the last part of an unlock fails after it decrypted some credential. -/
def decryptsAndFails (d : DaemonState) : Bool :=
  env.readBlobs.isNone && env.unlockFails && !(d.decryptAll env key).isEmpty

variable (service : String)

/-- Whether a credential is used at once when it is saved: a credential for X, or the API key of an
account whose provider can be built with it. -/
def usesSaved (credential : ServiceCredential)
    (d : DaemonState) : Bool :=
  (credential.isX && service == "twitter") ||
    match credential.asApiKey, d.accounts.accounts[service]? with
    | some key, some config =>
      (InferenceProvider.fromAccountConfig env.catalog env.connect config (some key)).toBool
    | _, _ => false

/-- The commands after which a locked daemon holds credentials or providers: the key and the blob are
accepted, but the last part of the unlock fails. -/
def leaks (label : DaemonLabel) (d : DaemonState) : Bool :=
  match label with
  | .restart _ => false
  | .command env command =>
    d.locked &&
      match command with
      | .unlock key => d.acceptsKey env key && d.decryptsAndFails env key
      | .bindKeystore key => d.acceptsBinding env key && d.decryptsAndFails env key
      | .saveCredential service blob key =>
        d.acceptsKey env key && env.writeBlob.isNone && env.unlockFails &&
          match openBlob env key blob with
          | .ok credential => env.readBlobs.isNone || d.usesSaved env service credential
          | .error _ => false
      | _ => false

theorem wiped_boot (binding : Option Bytes) (blobs : Std.ExtTreeMap String Bytes) :
    (boot env binding blobs).Wiped := fun _ => ⟨rfl, rfl, rfl⟩

/-! ### Unlocking -/

/-- The last part of an unlock, with what a failure leaves behind. -/
theorem unlockTail_outcome (d : DaemonState) :
    (env.unlockFails = false ∧ (d.unlockTail env key).1.locked = false ∧
      (d.unlockTail env key).2 = .ok ()) ∨
    (env.unlockFails = true ∧
      (d.unlockTail env key).1 =
        (if env.readBlobs.isNone then d.takeCredentials (d.decryptAll env key) else d) ∧
      ∃ e, (d.unlockTail env key).2 = .error e) := by
  unfold unlockTail DaemonEnv.unlockFails
  cases env.readBlobs with
  | some e => exact Or.inr ⟨rfl, rfl, _, rfl⟩
  | none =>
    cases env.accountsConfigPath with
    | error e => exact Or.inr ⟨rfl, rfl, _, rfl⟩
    | ok path =>
      dsimp only
      cases AccountManager.load env path with
      | error e => exact Or.inr ⟨rfl, rfl, _, rfl⟩
      | ok accounts => exact Or.inl ⟨rfl, rfl, rfl⟩

variable {d : DaemonState}

theorem isWiped_takeCredentials_iff (hproviders : d.providers = ∅)
    (hx : d.xCredentials = none) (credentials : Std.ExtTreeMap String ServiceCredential) :
    (d.takeCredentials credentials).IsWiped ↔ credentials = ∅ := by
  constructor
  · exact fun h => h.1
  · rintro rfl
    exact ⟨rfl, hproviders, hx⟩

/-- The last part of an unlock keeps a locked daemon wiped, unless it decrypts and fails. -/
theorem unlockTail_wiped_iff
    (hlocked : d.locked = true) (h : d.IsWiped) :
    (d.unlockTail env key).1.Wiped ↔ d.decryptsAndFails env key = false := by
  unfold decryptsAndFails
  rcases d.unlockTail_outcome env key with ⟨hfails, hopen, -⟩ | ⟨hfails, heq, -⟩
  · rw [hfails, Bool.and_false, Bool.false_and]
    refine ⟨fun _ => rfl, fun _ hcontra => ?_⟩
    cases hopen.symm.trans hcontra
  · rw [hfails, heq]
    cases env.readBlobs with
    | some e => exact ⟨fun _ => rfl, fun _ _ => h⟩
    | none =>
      have hiff := isWiped_takeCredentials_iff h.2.1 h.2.2 (d.decryptAll env key)
      have hwiped : (d.takeCredentials (d.decryptAll env key)).Wiped ↔
          (d.takeCredentials (d.decryptAll env key)).IsWiped :=
        ⟨fun hw => hw hlocked, fun hw _ => hw⟩
      simp only [Option.isNone_none, Bool.true_and, if_true, hwiped, hiff, Bool.not_eq_false',
        Std.ExtTreeMap.isEmpty_iff]

theorem handleUnlock_wiped_iff
    (hlocked : d.locked = true) (h : d.IsWiped) :
    (d.handleUnlock env key).1.Wiped ↔
      (d.acceptsKey env key && d.decryptsAndFails env key) = false := by
  simp only [handleUnlock, announceUnlock_fst, handleUnlockInner, zeroizedKeyOrWipe, acceptsKey]
  by_cases hlength : key.length = 32
  · rw [if_pos hlength, decide_eq_true hlength]
    dsimp only
    cases d.verifyKeystoreBinding env key with
    | error e => exact ⟨fun _ => rfl, fun _ _ => h⟩
    | ok _ => exact unlockTail_wiped_iff env key hlocked h
  · rw [if_neg hlength, decide_eq_false hlength]
    exact ⟨fun _ => rfl, fun _ _ => h⟩

theorem handleBindKeystore_wiped_iff
    (hlocked : d.locked = true) (h : d.IsWiped) :
    (d.handleBindKeystore env key).1.Wiped ↔
      (d.acceptsBinding env key && d.decryptsAndFails env key) = false := by
  simp only [handleBindKeystore, announceUnlock_fst, handleBindKeystoreInner, zeroizedKeyOrWipe,
    acceptsBinding]
  by_cases hlength : key.length = 32
  · rw [if_pos hlength, decide_eq_true hlength]
    dsimp only
    cases hbind : d.bindKeystore env key with
    | mk d₁ result =>
      cases result with
      | error e =>
        rw [bindKeystore_error hbind]
        exact ⟨fun _ => rfl, fun _ _ => h⟩
      | ok _ =>
        rw [(bindKeystore_ok hbind).2.1]
        exact unlockTail_wiped_iff env key hlocked h
  · rw [if_neg hlength, decide_eq_false hlength]
    exact ⟨fun _ => rfl, fun _ _ => h⟩

/-! ### Saving a credential -/

theorem takeSaved_wiped_iff (credential : ServiceCredential)
    (h : d.IsWiped) :
    (d.takeSaved env service credential).IsWiped ↔ d.usesSaved env service credential = false := by
  unfold usesSaved takeSaved
  cases credential with
  | apiKey key =>
    simp only [ServiceCredential.isX, ServiceCredential.asApiKey, Bool.false_and, Bool.false_or,
      if_neg Bool.false_ne_true, resolveAccountProvider]
    cases d.accounts.accounts[service]? with
    | none => exact ⟨fun _ => rfl, fun _ => h⟩
    | some config =>
      dsimp only
      cases InferenceProvider.fromAccountConfig env.catalog env.connect config (some key) with
      | error e => exact ⟨fun _ => rfl, fun _ => h⟩
      | ok provider =>
        refine ⟨fun hw => ?_, fun hcontra => by cases hcontra⟩
        exact absurd hw.2.1 Std.ExtTreeMap.insert_ne_empty
  | x apiKey apiKeySecret accessToken accessTokenSecret bearerToken =>
    simp only [ServiceCredential.isX, ServiceCredential.asApiKey, Bool.true_and, Bool.or_false]
    cases service == "twitter" with
    | false => exact ⟨fun _ => rfl, fun _ => h⟩
    | true =>
      refine ⟨fun hw => ?_, fun hcontra => by cases hcontra⟩
      cases hw.2.2
  | substrate name accountId secret publicKey => exact ⟨fun _ => rfl, fun _ => h⟩

theorem decryptAll_ne_empty {env : DaemonEnv} {service : String} {blob key : Bytes}
    {credential : ServiceCredential}
    (hopens : openBlob env key blob = .ok credential) (hblob : d.blobs[service]? = some blob) :
    d.decryptAll env key ≠ ∅ := by
  intro hempty
  have hget : (d.decryptAll env key)[service]? = some credential := by
    unfold decryptAll
    rw [Std.ExtTreeMap.getElem?_filterMap', hblob]
    simp [hopens, Except.toOption]
  rw [hempty, Std.ExtTreeMap.getElem?_empty] at hget
  cases hget

/-- The unlock after a credential was saved. -/
theorem unlockTail_takeSaved_wiped_iff {blob key : Bytes}
    {credential : ServiceCredential} (hlocked : d.locked = true) (h : d.IsWiped)
    (hopens : openBlob env key blob = .ok credential) (hblob : d.blobs[service]? = some blob) :
    ((d.takeSaved env service credential).unlockTail env key).1.Wiped ↔
      (env.unlockFails && (env.readBlobs.isNone || d.usesSaved env service credential)) = false := by
  set d₁ := d.takeSaved env service credential with hd₁
  have hlocked₁ : d₁.locked = true := (d.takeSaved_same env service credential).1.trans hlocked
  rcases d₁.unlockTail_outcome env key with ⟨hfails, hopen, -⟩ | ⟨hfails, heq, -⟩
  · rw [hfails, Bool.false_and]
    refine ⟨fun _ => rfl, fun _ hcontra => ?_⟩
    cases hopen.symm.trans hcontra
  · rw [hfails, heq, Bool.true_and]
    cases env.readBlobs with
    | some e =>
      refine Iff.trans ?_ (takeSaved_wiped_iff env service credential h)
      exact ⟨fun hw => hw hlocked₁, fun hw _ => hw⟩
    | none =>
      refine ⟨fun hw => ?_, fun hcontra => by cases hcontra⟩
      have hblob₁ : d₁.blobs[service]? = some blob := by
        have hblobs : d₁.blobs = d.blobs :=
          congrArg Prod.snd (database_takeSaved env service credential d)
        rw [hblobs, hblob]
      exact absurd (hw hlocked₁).1 (decryptAll_ne_empty hopens hblob₁)

theorem handleSaveCredential_wiped_iff (blob key : Bytes)
    (hlocked : d.locked = true) (h : d.IsWiped) :
    (d.handleSaveCredential env service blob key).1.Wiped ↔
      (d.acceptsKey env key && env.writeBlob.isNone && env.unlockFails &&
        match openBlob env key blob with
        | .ok credential => env.readBlobs.isNone || d.usesSaved env service credential
        | .error _ => false) = false := by
  have hsame : ∀ {b : Bool}, b = false → (d.Wiped ↔ b = false) :=
    fun hb => ⟨fun _ => hb, fun _ _ => h⟩
  simp only [handleSaveCredential, acceptsKey]
  by_cases hlength : key.length = 32
  swap
  · rw [if_pos hlength, decide_eq_false hlength]
    exact hsame rfl
  rw [if_neg (not_not.2 hlength), decide_eq_true hlength]
  cases d.verifyKeystoreBinding env key with
  | error e => cases e <;> exact hsame rfl
  | ok _ =>
    unfold openBlob
    cases hdecrypt : env.decryptWithPrivateKey key blob with
    | error e => exact hsame (Bool.and_false _)
    | ok plaintext =>
      dsimp only [bind, Except.bind]
      cases hdecode : env.decodeCredential plaintext with
      | error e => exact hsame (Bool.and_false _)
      | ok credential =>
        dsimp only
        cases env.writeBlob with
        | some e => exact hsame rfl
        | none =>
          have hopens : openBlob env key blob = .ok credential := by
            simp only [openBlob, bind, Except.bind, hdecrypt, hdecode]
          have hiff := unlockTail_takeSaved_wiped_iff env service
            (d := { d with blobs := d.blobs.insert service blob }) hlocked h hopens
            Std.ExtTreeMap.getElem?_insert_self
          refine Iff.trans ?_ hiff
          dsimp only
          split <;> next htail => rw [htail]

/-! ### The other commands -/

theorem apiKeyFor_of_isWiped (h : d.IsWiped) (name : String) :
    d.apiKeyFor name = none := by
  unfold apiKeyFor
  rw [h.1, Std.ExtTreeMap.getElem?_empty]
  rfl

/-- A reload builds no provider when no credential is held. -/
theorem reloadAccounts_isWiped (fresh : AccountManager)
    (h : d.IsWiped) : (d.reloadAccounts env fresh).IsWiped := by
  have hfold : ∀ (configs : List AccountConfig) (d : DaemonState), d.IsWiped →
      (configs.foldl (fun d config =>
        ({ d with providers := d.providers.erase config.name } : DaemonState).resolveAccountProvider
          env config.name (d.apiKeyFor config.name)) d).IsWiped := by
    intro configs
    induction configs with
    | nil => exact fun d hd => hd
    | cons config configs ih =>
      intro d hd
      rw [List.foldl_cons, apiKeyFor_of_isWiped hd, resolveAccountProvider_none]
      refine ih _ ⟨hd.1, ?_, hd.2.2⟩
      dsimp only
      rw [hd.2.1]
      exact Std.ExtTreeMap.erase_empty
  refine hfold _ _ ⟨h.1, ?_, h.2.2⟩
  dsimp only
  rw [h.2.1]
  exact foldl_erase_empty _

/-- Without a key nothing is decrypted, and no provider is built when nothing is held. -/
theorem handleCommand_isWiped {command : DaemonCommand}
    (hcommand : command.unlockKey = none) (h : d.IsWiped) :
    (d.handleCommand env command).1.IsWiped := by
  cases command with
  | unlock key | bindKeystore key | saveCredential service blob key => cases hcommand
  | lock => exact ⟨rfl, rfl, rfl⟩
  | removeCredential service =>
    simp only [handleCommand, handleRemoveCredential]
    split
    · exact h
    · refine ⟨?_, ?_, ?_⟩
      · dsimp only
        rw [h.1]
        exact Std.ExtTreeMap.erase_empty
      · dsimp only
        rw [h.2.1]
        exact Std.ExtTreeMap.erase_empty
      · dsimp only
        rw [h.2.2, ite_self]
  | addAccount config =>
    simp only [handleCommand, handleAddAccount]
    split
    · exact h
    · next accounts _ =>
      have hnone : ({ d with accounts := accounts } : DaemonState).apiKeyFor config.name = none :=
        apiKeyFor_of_isWiped h config.name
      simp only [hnone]
      exact h
  | removeAccount name =>
    simp only [handleCommand, handleRemoveAccount]
    split
    · exact h
    · refine ⟨h.1, ?_, h.2.2⟩
      dsimp only
      rw [h.2.1]
      exact Std.ExtTreeMap.erase_empty
  | accountsReload =>
    simp only [handleCommand, handleAccountsReload]
    split
    · exact h
    · split
      · exact h
      · split_ifs
        · exact h
        · exact reloadAccounts_isWiped env _ h

/-! ### Whole runs -/

/-- Exactly which steps keep the invariant. -/
theorem step_wiped_iff {label : DaemonLabel} {d d' : DaemonState} (h : d.Wiped)
    (hstep : step label d = some d') : d'.Wiped ↔ d.leaks label = false := by
  cases label with
  | restart env =>
    cases hstep
    exact ⟨fun _ => rfl, fun _ => wiped_boot env _ _⟩
  | command env command =>
    cases hstep
    unfold leaks
    cases hlocked : d.locked with
    | false =>
      refine ⟨fun _ => rfl, fun _ hlocked' => ?_⟩
      by_cases hlock : command = .lock
      · cases hlock
        exact ⟨rfl, rfl, rfl⟩
      · rcases handleCommand_locked env hlock d with ⟨hopen, -⟩ | ⟨hsame, -⟩
        · cases hopen.symm.trans hlocked'
        · cases hlocked.symm.trans (hsame.symm.trans hlocked')
    | true =>
      have hwiped := h hlocked
      cases command with
      | unlock key => exact handleUnlock_wiped_iff env key hlocked hwiped
      | bindKeystore key => exact handleBindKeystore_wiped_iff env key hlocked hwiped
      | saveCredential service blob key =>
        exact handleSaveCredential_wiped_iff env service blob key hlocked hwiped
      | _ => exact ⟨fun _ => rfl, fun _ _ => handleCommand_isWiped env rfl hwiped⟩

/-- In a run of the daemon a locked daemon holds nothing in every state that is reached, if and only
if no step of the run leaks. -/
theorem wiped_of_run_iff (env : DaemonEnv) (binding : Option Bytes)
    (blobs : Std.ExtTreeMap String Bytes) (labels : List DaemonLabel) :
    (∀ before d, before <+: labels →
      StepSystem.run step before (boot env binding blobs) = some d → d.Wiped) ↔
    StepSystem.Along step (fun label d => d.leaks label = false) labels
      (boot env binding blobs) :=
  StepSystem.forall_prefix_iff_along
    (fun label d => by cases label <;> rfl)
    (fun _ _ _ h hstep => step_wiped_iff h hstep) (wiped_boot env binding blobs)

/-- The accounts file cannot be read. -/
def brokenEnv : DaemonEnv :=
  { Sample.daemonEnv with readAccountsFile := fun _ => .error "expected a table" }

/-- An unlock whose accounts cannot be loaded leaves the credentials in a locked daemon. -/
theorem not_wiped_failedUnlock :
    ¬∀ before d, before <+: [.command brokenEnv (.unlock Sample.key)] →
      StepSystem.run step before
        (boot Sample.daemonEnv (some Sample.key.reverse)
          (Std.ExtTreeMap.ofList [("work", Sample.key ++ [1])])) = some d → d.Wiped := by
  intro hall
  have hwiped := hall _ _ (List.prefix_refl _) rfl
  have hlocked : (((boot Sample.daemonEnv (some Sample.key.reverse)
      (Std.ExtTreeMap.ofList [("work", Sample.key ++ [1])])).handleCommand brokenEnv
        (.unlock Sample.key)).1.locked,
      ((boot Sample.daemonEnv (some Sample.key.reverse)
        (Std.ExtTreeMap.ofList [("work", Sample.key ++ [1])])).handleCommand brokenEnv
          (.unlock Sample.key)).1.credentials.isEmpty) = (true, false) := by
    decide +kernel
  rw [Prod.mk.injEq] at hlocked
  have hempty := (hwiped hlocked.1).1
  rw [← Std.ExtTreeMap.isEmpty_iff] at hempty
  cases hlocked.2.symm.trans hempty

end DaemonState

end Choreo
