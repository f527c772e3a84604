import Choreo.Daemon.Lock

/-!
# The keystore is bound once

The first key that a client binds the keystore to is the only one that ever unlocks the daemon or
saves a credential: no other command creates a binding, and a binding stays as it is, also when the
daemon is started again.
-/

namespace Choreo

/-- The key that a client presents with a command. -/
def DaemonCommand.unlockKey : DaemonCommand → Option Bytes
  | .unlock key | .bindKeystore key | .saveCredential _ _ key => some key
  | _ => none

namespace DaemonState

/-! ### What is stored -/

def database (d : DaemonState) : Option Bytes × Std.ExtTreeMap String Bytes := (d.binding, d.blobs)

variable (env : DaemonEnv)

theorem database_resolveAccountProvider (name : String) (apiKey : Option String)
    (d : DaemonState) : (d.resolveAccountProvider env name apiKey).database = d.database := by
  unfold resolveAccountProvider
  split
  · rfl
  · split <;> rfl

/-- A loop whose body keeps the database keeps it. -/
theorem database_foldl {α : Type*} (body : DaemonState → α → DaemonState)
    (h : ∀ d a, (body d a).database = d.database) (as : List α) (d : DaemonState) :
    (as.foldl body d).database = d.database := by
  induction as generalizing d with
  | nil => rfl
  | cons a as ih => rw [List.foldl_cons, ih, h]

theorem database_unlockTail (key : Bytes) (d : DaemonState) :
    (d.unlockTail env key).1.database = d.database := by
  unfold unlockTail
  split
  · rfl
  · dsimp only
    split
    · rfl
    · split
      · rfl
      · exact database_foldl _ (fun d config => database_resolveAccountProvider env _ _ d) _ _

theorem database_takeSaved (service : String) (credential : ServiceCredential)
    (d : DaemonState) : (d.takeSaved env service credential).database = d.database := by
  unfold takeSaved
  dsimp only
  split
  · rw [database_resolveAccountProvider]
    split_ifs <;> rfl
  · split_ifs <;> rfl

/-! ### Keys that are accepted -/

theorem getKeystoreBinding_of_database {d d' : DaemonState} (h : d'.database = d.database) :
    d'.getKeystoreBinding = d.getKeystoreBinding := by
  have hbinding : d'.binding = d.binding := congrArg Prod.fst h
  unfold getKeystoreBinding
  rw [hbinding]

theorem getKeystoreBinding_of_verify {env : DaemonEnv} {key : Bytes} {d : DaemonState}
    (h : d.verifyKeystoreBinding env key = .ok ()) :
    d.getKeystoreBinding = some (env.publicKey key) := by
  unfold verifyKeystoreBinding at h
  split at h
  · cases h
  · split at h
    · cases h
    · next stored hstored =>
      split_ifs at h with heq
      rw [hstored, heq]

/-- What a command does: it creates a binding only if it binds an unbound keystore, it unlocks the
daemon only with a key that matches the binding, and it stores a credential only if the key matches
and opens it. -/
structure Checked (env : DaemonEnv) (command : DaemonCommand) (d d' : DaemonState) : Prop where
  binding : d'.getKeystoreBinding = d.getKeystoreBinding ∨
    ∃ key, command = .bindKeystore key ∧ d.getKeystoreBinding = none
  unlocked : d.locked = true → d'.locked = false →
    ∃ key, command.unlockKey = some key ∧ d'.getKeystoreBinding = some (env.publicKey key)
  saved : ∀ (service : String) (blob : Bytes), d'.blobs[service]? = some blob →
    d.blobs[service]? = some blob ∨
      ∃ key credential, command = .saveCredential service blob key ∧
        d'.getKeystoreBinding = some (env.publicKey key) ∧
        openBlob env key blob = .ok credential

variable {env : DaemonEnv} {command : DaemonCommand} {d d' : DaemonState}

theorem checked_of_database (h : d'.database = d.database)
    (hlocked : d.locked = true → d'.locked = false →
      ∃ key, command.unlockKey = some key ∧ d.getKeystoreBinding = some (env.publicKey key)) :
    Checked env command d d' := by
  have hbinding := getKeystoreBinding_of_database h
  have hblobs : d'.blobs = d.blobs := congrArg Prod.snd h
  refine ⟨Or.inl hbinding, fun hd hd' => ?_, fun service blob hblob => Or.inl ?_⟩
  · rw [hbinding]
    exact hlocked hd hd'
  · rw [← hblobs]
    exact hblob

theorem checked_of_locked (h : d'.database = d.database)
    (hlocked : d'.locked = true ∨ d'.locked = d.locked) : Checked env command d d' := by
  refine checked_of_database h fun hd hd' => ?_
  rcases hlocked with hlocked | hlocked
  · cases hlocked.symm.trans hd'
  · cases hd.symm.trans (hlocked.symm.trans hd')

@[simp]
theorem announceUnlock_fst (success : DaemonOutput) (wasLocked : Bool)
    (r : DaemonState × Except KeystoreOpError Unit) :
    (announceUnlock success wasLocked r).1 = r.1 := by
  obtain ⟨d, result⟩ := r
  cases result with
  | ok _ => rfl
  | error e => cases e <;> rfl

theorem handleUnlock_checked (env : DaemonEnv) (privateKey : Bytes) (d : DaemonState) :
    Checked env (.unlock privateKey) d (d.handleUnlock env privateKey).1 := by
  simp only [handleUnlock, announceUnlock_fst, handleUnlockInner, zeroizedKeyOrWipe]
  by_cases hlength : privateKey.length = 32
  · rw [if_pos hlength]
    dsimp only
    split
    · exact checked_of_locked rfl (Or.inr rfl)
    · next hverify =>
      exact checked_of_database (d.database_unlockTail env privateKey)
        fun _ _ => ⟨privateKey, rfl, getKeystoreBinding_of_verify hverify⟩
  · rw [if_neg hlength]
    exact checked_of_locked rfl (Or.inr rfl)

theorem bindKeystore_ok {key : Bytes} (h : d.bindKeystore env key = (d', .ok ())) :
    d'.getKeystoreBinding = some (env.publicKey key) ∧ d' = { d with binding := d'.binding } ∧
      (d' = d ∨ d.getKeystoreBinding = none) := by
  unfold bindKeystore at h
  split at h
  · cases h
  · split at h
    · next hnone =>
      split at h
      · cases h
      · cases h
        refine ⟨?_, rfl, Or.inr hnone⟩
        exact dif_pos (env.publicKey key).property
    · next stored hstored =>
      split_ifs at h with heq
      · cases h
        exact ⟨by rw [hstored, heq], rfl, Or.inl rfl⟩
      · cases h

theorem bindKeystore_error {key : Bytes} {e : KeystoreOpError}
    (h : d.bindKeystore env key = (d', .error e)) : d' = d := by
  unfold bindKeystore at h
  split at h
  · cases h
    rfl
  · split at h
    · split at h
      · cases h
        rfl
      · cases h
    · split_ifs at h
      · cases h
      · cases h
        rfl

theorem handleBindKeystore_checked (env : DaemonEnv) (key : Bytes) (d : DaemonState) :
    Checked env (.bindKeystore key) d (d.handleBindKeystore env key).1 := by
  simp only [handleBindKeystore, announceUnlock_fst, handleBindKeystoreInner, zeroizedKeyOrWipe]
  by_cases hlength : key.length = 32
  · rw [if_pos hlength]
    dsimp only
    split
    · next hbind =>
      rw [bindKeystore_error hbind]
      exact checked_of_locked rfl (Or.inr rfl)
    · next d₁ hbind =>
      obtain ⟨hbinding, honly, hnew⟩ := bindKeystore_ok hbind
      have hdatabase := d₁.database_unlockTail env key
      have htail : (d₁.unlockTail env key).1.getKeystoreBinding = some (env.publicKey key) :=
        (getKeystoreBinding_of_database hdatabase).trans hbinding
      refine ⟨?_, fun _ _ => ⟨key, rfl, htail⟩, fun service blob hblob => Or.inl ?_⟩
      · rcases hnew with rfl | hnone
        · exact Or.inl (htail.trans hbinding.symm)
        · exact Or.inr ⟨key, rfl, hnone⟩
      · have hsame : (d₁.unlockTail env key).1.blobs = d.blobs := by
          refine (congrArg Prod.snd hdatabase).trans ?_
          rw [honly]
          rfl
        rw [← hsame]
        exact hblob
  · rw [if_neg hlength]
    exact checked_of_locked rfl (Or.inr rfl)

/-- What binding does to an unbound keystore: nothing when it fails, and otherwise the keystore is
bound to the key. -/
theorem getKeystoreBinding_handleBindKeystore (key : Bytes)
    (d : DaemonState) (h : d.getKeystoreBinding = none) :
    (d.handleBindKeystore env key).1.getKeystoreBinding = none ∨
      (d.handleBindKeystore env key).1.getKeystoreBinding = some (env.publicKey key) := by
  simp only [handleBindKeystore, announceUnlock_fst, handleBindKeystoreInner, zeroizedKeyOrWipe]
  by_cases hlength : key.length = 32
  · rw [if_pos hlength]
    dsimp only
    split
    · next hbind =>
      rw [bindKeystore_error hbind]
      exact Or.inl h
    · next d₁ hbind =>
      have htail := getKeystoreBinding_of_database (d₁.database_unlockTail env key)
      exact Or.inr (htail.trans (bindKeystore_ok hbind).1)
  · rw [if_neg hlength]
    exact Or.inl h

theorem handleSaveCredential_checked (env : DaemonEnv) (service : String)
    (encryptedBlob unlockKey : Bytes) (d : DaemonState) :
    Checked env (.saveCredential service encryptedBlob unlockKey) d
      (d.handleSaveCredential env service encryptedBlob unlockKey).1 := by
  have hsame : Checked env (.saveCredential service encryptedBlob unlockKey) d d :=
    checked_of_locked rfl (Or.inr rfl)
  unfold handleSaveCredential
  dsimp only
  split_ifs
  · exact hsame
  split
  · exact hsame
  · exact hsame
  next hverify =>
  split
  · exact hsame
  next plaintext hdecrypt =>
  split
  · exact hsame
  next credential hdecode =>
  split
  · exact hsame
  set d₁ : DaemonState := { d with blobs := d.blobs.insert service encryptedBlob } with hd₁
  have hbinding : d.getKeystoreBinding = some (env.publicKey unlockKey) :=
    getKeystoreBinding_of_verify hverify
  have hopens : openBlob env unlockKey encryptedBlob = .ok credential := by
    unfold openBlob
    rw [hdecrypt]
    exact hdecode
  have hchecked : ∀ d₂ : DaemonState, d₂.database = d₁.database →
      Checked env (.saveCredential service encryptedBlob unlockKey) d d₂ := by
    intro d₂ hd₂
    have hb : d₂.getKeystoreBinding = some (env.publicKey unlockKey) :=
      (getKeystoreBinding_of_database hd₂).trans hbinding
    have hblobs : d₂.blobs = d.blobs.insert service encryptedBlob := congrArg Prod.snd hd₂
    refine ⟨Or.inl (hb.trans hbinding.symm), fun _ _ => ⟨unlockKey, rfl, hb⟩, ?_⟩
    intro service' blob hblob
    rw [hblobs, Std.ExtTreeMap.get_insert] at hblob
    split_ifs at hblob with hservice
    · cases hservice
      cases hblob
      exact Or.inr ⟨unlockKey, credential, rfl, hb, hopens⟩
    · exact Or.inl hblob
  have hdatabase : ((d₁.takeSaved env service credential).unlockTail env unlockKey).1.database =
      d₁.database :=
    (database_unlockTail env unlockKey _).trans (database_takeSaved env service credential d₁)
  split
  · next d₂ e htail =>
    rw [htail] at hdatabase
    exact hchecked d₂ hdatabase
  · next d₂ htail =>
    rw [htail] at hdatabase
    exact hchecked d₂ hdatabase

theorem handleRemoveCredential_checked (env : DaemonEnv) (service : String) (d : DaemonState) :
    Checked env (.removeCredential service) d (d.handleRemoveCredential env service).1 := by
  unfold handleRemoveCredential
  split
  · exact checked_of_locked rfl (Or.inr rfl)
  · refine ⟨Or.inl rfl, fun hd hd' => (by cases hd.symm.trans hd'), fun service' blob hblob => ?_⟩
    dsimp only at hblob
    rw [Std.ExtTreeMap.get_erase] at hblob
    split_ifs at hblob
    exact Or.inl hblob

theorem handleAddAccount_checked (env : DaemonEnv) (config : AccountConfig) (d : DaemonState) :
    Checked env (.addAccount config) d (d.handleAddAccount env config).1 := by
  unfold handleAddAccount
  split
  · exact checked_of_locked rfl (Or.inr rfl)
  · dsimp only
    split
    · exact checked_of_locked (database_resolveAccountProvider env _ _ _)
        (Or.inr (resolveAccountProvider_locked env _ _ _))
    · exact checked_of_locked rfl (Or.inr rfl)

theorem handleAccountsReload_checked (env : DaemonEnv) (d : DaemonState) :
    Checked env .accountsReload d (d.handleAccountsReload env).1 := by
  unfold handleAccountsReload
  split
  · exact checked_of_locked rfl (Or.inr rfl)
  split
  · exact checked_of_locked rfl (Or.inr rfl)
  split_ifs
  · exact checked_of_locked rfl (Or.inr rfl)
  · refine checked_of_locked ?_ (Or.inr (foldl_rebuild_locked env _ _))
    refine (database_foldl _ (fun d config => ?_) _ _).trans rfl
    exact database_resolveAccountProvider env _ _ _

theorem handleCommand_checked (env : DaemonEnv) (command : DaemonCommand) (d : DaemonState) :
    Checked env command d (d.handleCommand env command).1 := by
  cases command with
  | unlock privateKey => exact handleUnlock_checked env privateKey d
  | bindKeystore key => exact handleBindKeystore_checked env key d
  | lock => exact checked_of_locked rfl (Or.inl rfl)
  | saveCredential service encryptedBlob unlockKey =>
    exact handleSaveCredential_checked env service encryptedBlob unlockKey d
  | removeCredential service => exact handleRemoveCredential_checked env service d
  | addAccount config => exact handleAddAccount_checked env config d
  | removeAccount name =>
    unfold handleCommand handleRemoveAccount
    dsimp only
    split <;> exact checked_of_locked rfl (Or.inr rfl)
  | accountsReload => exact handleAccountsReload_checked env d

/-! ### Whole runs -/

/-- What a step from `d` to `d'` does in a run that ends in `final`: only `BindKeystore` creates a
binding, a binding is the same at the end, and whoever unlocks the daemon or stores a credential has
a key that matches the binding at the end. -/
structure TrustOnFirstUse (label : DaemonLabel) (d d' final : DaemonState) : Prop where
  created : d.getKeystoreBinding = none → d'.getKeystoreBinding ≠ none →
    ∃ env key, label = .command env (.bindKeystore key)
  stable : ∀ binding, d.getKeystoreBinding = some binding →
    final.getKeystoreBinding = some binding
  unlocked : d.locked = true → d'.locked = false →
    ∃ env command key, label = .command env command ∧ command.unlockKey = some key ∧
      final.getKeystoreBinding = some (env.publicKey key)
  saved : ∀ (service : String) (blob : Bytes), d'.blobs[service]? = some blob →
    d.blobs[service]? ≠ some blob →
    ∃ env key credential, label = .command env (.saveCredential service blob key) ∧
      openBlob env key blob = .ok credential ∧
      final.getKeystoreBinding = some (env.publicKey key)

/-- A binding stays. -/
theorem step_binding {binding : PublicKey} (label : DaemonLabel) (d d' : DaemonState)
    (h : d.getKeystoreBinding = some binding) (hstep : step label d = some d') :
    d'.getKeystoreBinding = some binding := by
  cases label with
  | restart env =>
    cases hstep
    exact h
  | command env command =>
    cases hstep
    rcases (handleCommand_checked env command d).binding with hsame | ⟨key, -, hnone⟩
    · exact hsame.trans h
    · cases hnone.symm.trans h

/-- Every step of every run of the daemon creates a binding, unlocks the daemon and stores
credentials only as the first binding allows. -/
theorem trustOnFirstUse_of_run {env : DaemonEnv} {binding : Option Bytes}
    {blobs : Std.ExtTreeMap String Bytes} {before after : List DaemonLabel} {label : DaemonLabel}
    {final : DaemonState}
    (hrun : StepSystem.run step (before ++ label :: after) (boot env binding blobs) = some final) :
    ∃ d d', StepSystem.run step before (boot env binding blobs) = some d ∧
      step label d = some d' ∧ TrustOnFirstUse label d d' final := by
  obtain ⟨d, hbefore, hrest⟩ := StepSystem.run_append_eq_some.1 hrun
  obtain ⟨d', hstep, hafter⟩ := StepSystem.run_cons_eq_some.1 hrest
  refine ⟨d, d', hbefore, hstep, ?_⟩
  have hfinal : ∀ {key : PublicKey}, d'.getKeystoreBinding = some key →
      final.getKeystoreBinding = some key :=
    fun h => StepSystem.invariant_of_run step_binding h hafter
  have hstable : ∀ key, d.getKeystoreBinding = some key → final.getKeystoreBinding = some key :=
    fun key h => hfinal (step_binding label d d' h hstep)
  cases label with
  | restart env =>
    cases hstep
    refine ⟨fun hnone hsome => absurd hnone hsome, hstable, fun _ h => (by cases h), ?_⟩
    exact fun service blob hblob hne => absurd hblob hne
  | command env command =>
    cases hstep
    have hchecked := handleCommand_checked env command d
    refine ⟨fun hnone hsome => ?_, hstable, fun hd hd' => ?_, fun service blob hblob hne => ?_⟩
    · rcases hchecked.binding with hsame | ⟨key, rfl, -⟩
      · exact absurd (hsame.trans hnone) hsome
      · exact ⟨env, key, rfl⟩
    · obtain ⟨key, hkey, hb⟩ := hchecked.unlocked hd hd'
      exact ⟨env, command, key, rfl, hkey, hfinal hb⟩
    · rcases hchecked.saved service blob hblob with hold | ⟨key, credential, rfl, hb, hopens⟩
      · exact absurd hold hne
      · exact ⟨env, key, credential, rfl, hopens, hfinal hb⟩

/-- The keystore is bound, and a credential is saved while the daemon is locked. -/
theorem trustOnFirstUse_bindAndSave :
    ∃ final d d',
      StepSystem.run step
        ([.command Sample.daemonEnv (.bindKeystore Sample.key), .command Sample.daemonEnv .lock] ++
          .command Sample.daemonEnv (.saveCredential "work" (Sample.key ++ [1]) Sample.key) ::
          [.restart Sample.daemonEnv, .command Sample.daemonEnv (.unlock Sample.key)])
        (boot Sample.daemonEnv none ∅) = some final ∧
      d.locked = true ∧ d'.locked = false ∧
      TrustOnFirstUse
        (.command Sample.daemonEnv (.saveCredential "work" (Sample.key ++ [1]) Sample.key))
        d d' final := by
  have hsome : (StepSystem.run step
      ([.command Sample.daemonEnv (.bindKeystore Sample.key), .command Sample.daemonEnv .lock] ++
        .command Sample.daemonEnv (.saveCredential "work" (Sample.key ++ [1]) Sample.key) ::
        [.restart Sample.daemonEnv, .command Sample.daemonEnv (.unlock Sample.key)])
      (boot Sample.daemonEnv none ∅)).isSome = true := rfl
  obtain ⟨final, hrun⟩ := Option.isSome_iff_exists.1 hsome
  obtain ⟨d, d', hbefore, hstep, htrust⟩ := trustOnFirstUse_of_run hrun
  refine ⟨final, d, d', hrun, ?_, ?_, htrust⟩
  · cases hbefore
    rfl
  · cases hbefore
    cases hstep
    decide

end DaemonState

end Choreo
