import Choreo.Provider
import Choreo.Library.TreeMap

/-!
# The daemon's keystore, accounts and providers

The daemon keeps the credentials of the services in its database, encrypted for a key that only
clients hold. A client that presents the key unlocks the daemon: all credentials are decrypted into
memory, the accounts are loaded from their file, and a provider is built for every account that has a
credential. A lock drops all of this again (`choreo-daemon/src/daemon.rs` and
`choreo-daemon/src/accounts/mod.rs`).

## Main definitions

* `DaemonState`: what the daemon's command loop keeps about credentials and accounts.
* `AccountManager`: the accounts.
* `DaemonState.unlockTail`: what every way to unlock the daemon ends with.
* `DaemonState.handleCommand`: the commands that change credentials, accounts or providers.
-/

namespace Choreo

/-- A decrypted credential. -/
inductive ServiceCredential
  | apiKey (key : String)
  | x (apiKey apiKeySecret accessToken accessTokenSecret : String) (bearerToken : Option String)
  | substrate (name accountId : String) (secret publicKey : Bytes)
deriving DecidableEq, Repr

def ServiceCredential.asApiKey : ServiceCredential → Option String
  | .apiKey key => some key
  | _ => none

def ServiceCredential.isX : ServiceCredential → Bool
  | .x .. => true
  | _ => false

/-- Failure of an operation on the keystore. -/
inductive KeystoreOpError
  | unbound
  | other (error : String)
deriving DecidableEq, Repr

/-- The text of a keystore failure. -/
def KeystoreOpError.message : KeystoreOpError → String
  | .unbound =>
    "keystore not initialized — no key is bound to this daemon yet; " ++
      "it will be bound automatically on next client connect"
  | .other error => error

/-- The longest retry delay that an account may ask for. -/
def maxBackoffMs : ℕ := 3600000

/-- Checks the retry settings of an account. -/
def AccountConfig.validate (config : AccountConfig) : Except String Unit :=
  match config.retryInitialBackoffMs, config.retryMaxBackoffMs with
  | some initial, maximum =>
    if maxBackoffMs < initial then
      .error (s!"account '{config.name}': retry_initial_backoff_ms ({initial} ms) exceeds the " ++
        s!"maximum supported retry delay ({maxBackoffMs} ms); lower it or leave it unset to use " ++
        "the default")
    else
      match maximum with
      | none => .ok ()
      | some maximum =>
        if maxBackoffMs < maximum then
          .error (s!"account '{config.name}': retry_max_backoff_ms ({maximum} ms) exceeds the " ++
            s!"maximum supported retry delay ({maxBackoffMs} ms); lower it or leave it unset to " ++
            "use the default")
        else if maximum < initial then
          .error (s!"account '{config.name}': retry_initial_backoff_ms ({initial} ms) must not " ++
            s!"exceed retry_max_backoff_ms ({maximum} ms)")
        else .ok ()
  | none, some maximum =>
    if maxBackoffMs < maximum then
      .error (s!"account '{config.name}': retry_max_backoff_ms ({maximum} ms) exceeds the " ++
        s!"maximum supported retry delay ({maxBackoffMs} ms); lower it or leave it unset to use " ++
        "the default")
    else .ok ()
  | none, none => .ok ()

def PublicKey : Type := { bytes : Bytes // bytes.length = 32 }

instance : DecidableEq PublicKey := fun a b =>
  decidable_of_iff (a.val = b.val) Subtype.ext_iff.symm

/-- The surroundings of one daemon command: the catalog and the setup of HTTP clients, the two
operations of the cryptography package and the decoding of a credential, where the accounts file is
and what it holds, and the error, if any, of each access to the database and of saving the file. -/
structure DaemonEnv where
  catalog : Catalog
  connect : ProviderClient → Option String
  publicKey : Bytes → PublicKey
  decryptWithPrivateKey : Bytes → Bytes → Except String Bytes
  decodeCredential : Bytes → Except String ServiceCredential
  accountsConfigPath : Except String PathBuf
  readAccountsFile : PathBuf → Except String (List AccountConfig)
  readBinding : Option String := none
  writeBinding : Option String := none
  readBlobs : Option String := none
  writeBlob : Option String := none
  removeBlob : Option String := none
  saveAccounts : Option String := none

/-- The accounts, and the file they were loaded from, if they could be loaded. -/
structure AccountManager where
  configPath : Option PathBuf := none
  accounts : Std.ExtTreeMap String AccountConfig := ∅
deriving DecidableEq

namespace AccountManager

variable (env : DaemonEnv)

/-- Loads the accounts of a file; every one of them must be valid. A later entry replaces an earlier
one of the same name. -/
def load (path : PathBuf) : Except String AccountManager := do
  let configs ← env.readAccountsFile path
  configs.forM AccountConfig.validate
  return { configPath := some path
           accounts := configs.foldl (fun m config => m.insert config.name config) ∅ }

/-- The accounts by name. -/
def allConfigs (manager : AccountManager) : List AccountConfig := manager.accounts.values

def save : Except String Unit :=
  match env.saveAccounts with
  | some e => .error s!"failed to save accounts: {e}"
  | none => .ok ()

/-- Adds an account. It stays in memory when saving fails. -/
def add (config : AccountConfig) (manager : AccountManager) :
    AccountManager × Except String Unit :=
  match config.validate with
  | .error e => (manager, .error e)
  | .ok () =>
    if manager.accounts.contains config.name then
      (manager, .error s!"account '{config.name}' already exists")
    else
      ({ manager with accounts := manager.accounts.insert config.name config }, save env)

/-- Removes an account. It is gone from memory when saving fails. -/
def remove (name : String) (manager : AccountManager) :
    AccountManager × Except String Unit :=
  if manager.accounts.contains name then
    ({ manager with accounts := manager.accounts.erase name }, save env)
  else (manager, .error s!"account '{name}' not found")

end AccountManager

/-- What the daemon answers to the acting client, sends on a reply channel, and broadcasts. -/
inductive DaemonOutput
  | unlocked
  | bound
  | keystoreUnbound (error : String)
  | lockedError (error : String)
  | credentialAdded (service : String)
  | credentialAddFailed (service error : String)
  | result (result : Except String Unit)
  | lockState (locked : Bool)
  | accountsChanged

/-- The part of the daemon's state that concerns credentials: the accounts, the providers built for
them, the decrypted credentials, the lock flag, and the binding and encrypted credentials in the
database. -/
structure DaemonState where
  accounts : AccountManager := {}
  providers : Std.ExtTreeMap String InferenceProvider := ∅
  credentials : Std.ExtTreeMap String ServiceCredential := ∅
  xCredentials : Option ServiceCredential := none
  locked : Bool := true
  binding : Option Bytes := none
  blobs : Std.ExtTreeMap String Bytes := ∅
deriving DecidableEq

namespace DaemonState

variable (env : DaemonEnv)

/-- The state of a daemon that starts with the given database: locked, and with the accounts of the
file if they can be loaded. -/
def boot (binding : Option Bytes) (blobs : Std.ExtTreeMap String Bytes) :
    DaemonState where
  accounts :=
    match env.accountsConfigPath with
    | .error _ => {}
    | .ok path =>
      match AccountManager.load env path with
      | .error _ => {}
      | .ok accounts => accounts
  binding := binding
  blobs := blobs

/-- Builds the provider of an account, if the account exists and its provider can be built. -/
def resolveAccountProvider (name : String) (apiKey : Option String)
    (d : DaemonState) : DaemonState :=
  match d.accounts.accounts[name]? with
  | none => d
  | some config =>
    match InferenceProvider.fromAccountConfig env.catalog env.connect config apiKey with
    | .error _ => d
    | .ok provider => { d with providers := d.providers.insert name provider }

def apiKeyFor (d : DaemonState) (name : String) : Option String :=
  d.credentials[name]?.bind ServiceCredential.asApiKey

def openBlob (key blob : Bytes) : Except String ServiceCredential := do
  let plaintext ← env.decryptWithPrivateKey key blob
  env.decodeCredential plaintext

def decryptAll (key : Bytes) (d : DaemonState) :
    Std.ExtTreeMap String ServiceCredential :=
  d.blobs.filterMap fun _ blob => (openBlob env key blob).toOption

/-- Takes the decrypted credentials over. -/
def takeCredentials (credentials : Std.ExtTreeMap String ServiceCredential) (d : DaemonState) :
    DaemonState :=
  { d with
    xCredentials :=
      match credentials["twitter"]? with
      | some credential => if credential.isX then some credential else d.xCredentials
      | none => d.xCredentials
    credentials := credentials }

/-- An account with default settings. -/
def simpleAccount (name provider : String) : AccountConfig := { name := name, provider := provider }

/-- Takes the loaded accounts over, with a default account when there is none but an OpenAI
credential, and builds their providers. -/
def takeAccounts (accounts : AccountManager) (d : DaemonState) : DaemonState :=
  let accounts :=
    if accounts.accounts.isEmpty && d.credentials.contains "openai" then
      (accounts.add env (simpleAccount "default" "openai")).1
    else accounts
  let d := { d with accounts := accounts, providers := ∅ }
  accounts.allConfigs.foldl
    (fun d config => d.resolveAccountProvider env config.name (d.apiKeyFor config.name)) d

/-- What every way to unlock the daemon ends with: all credentials are decrypted, the accounts are
loaded and their providers are built. When the accounts cannot be loaded, the credentials stay in
memory although the daemon stays locked. -/
def unlockTail (key : Bytes) (d : DaemonState) :
    DaemonState × Except String Unit :=
  match env.readBlobs with
  | some e => (d, .error s!"failed to read credentials from database: {e}")
  | none =>
    let d := d.takeCredentials (d.decryptAll env key)
    match env.accountsConfigPath with
    | .error e => (d, .error s!"failed to get accounts config path: {e}")
    | .ok path =>
      match AccountManager.load env path with
      | .error e => (d, .error s!"failed to load accounts: {e}")
      | .ok accounts => ({ d.takeAccounts env accounts with locked := false }, .ok ())

/-- The key that a client presented, which must have 32 bytes. -/
def zeroizedKeyOrWipe (key : Bytes) : Except KeystoreOpError Bytes :=
  if key.length = 32 then .ok key
  else .error (.other "invalid key: expected exactly 32 bytes")

/-- The binding that the database holds. A value of another length than that of a public key counts
as no binding. -/
def getKeystoreBinding (d : DaemonState) : Option PublicKey :=
  d.binding.bind fun bytes => if h : bytes.length = 32 then some ⟨bytes, h⟩ else none

/-- Checks a key against the binding of the keystore. -/
def verifyKeystoreBinding (key : Bytes) (d : DaemonState) :
    Except KeystoreOpError Unit :=
  match env.readBinding with
  | some e => .error (.other s!"failed to read keystore binding: {e}")
  | none =>
    match d.getKeystoreBinding with
    | none => .error .unbound
    | some stored =>
      if stored = env.publicKey key then .ok ()
      else .error (.other "unlock key does not match the daemon's keystore binding")

/-- Adopts the key of an unbound keystore, or checks it. -/
def bindKeystore (key : Bytes) (d : DaemonState) :
    DaemonState × Except KeystoreOpError Unit :=
  match env.readBinding with
  | some e => (d, .error (.other s!"failed to read keystore binding: {e}"))
  | none =>
    match d.getKeystoreBinding with
    | none =>
      match env.writeBinding with
      | some e => (d, .error (.other s!"failed to persist keystore binding: {e}"))
      | none => ({ d with binding := some (env.publicKey key).val }, .ok ())
    | some stored =>
      if stored = env.publicKey key then (d, .ok ())
      else
        (d, .error (.other ("keystore is already bound and the presented key does not match; " ++
          "refusing to overwrite the binding")))

/-- The error of the unlock tail as a keystore failure. -/
def asKeystoreResult (result : DaemonState × Except String Unit) :
    DaemonState × Except KeystoreOpError Unit :=
  (result.1, result.2.mapError .other)

def handleUnlockInner (privateKey : Bytes) (d : DaemonState) :
    DaemonState × Except KeystoreOpError Unit :=
  match zeroizedKeyOrWipe privateKey with
  | .error e => (d, .error e)
  | .ok key =>
    match d.verifyKeystoreBinding env key with
    | .error e => (d, .error e)
    | .ok () => asKeystoreResult (d.unlockTail env key)

def handleBindKeystoreInner (key : Bytes) (d : DaemonState) :
    DaemonState × Except KeystoreOpError Unit :=
  match zeroizedKeyOrWipe key with
  | .error e => (d, .error e)
  | .ok key =>
    match d.bindKeystore env key with
    | (d, .error e) => (d, .error e)
    | (d, .ok ()) => asKeystoreResult (d.unlockTail env key)

/-- The answer to the acting client, and the broadcast of the lock state when it changed. -/
def announceUnlock (success : DaemonOutput) (wasLocked : Bool)
    (result : DaemonState × Except KeystoreOpError Unit) : DaemonState × List DaemonOutput :=
  match result with
  | (d, .ok ()) => (d, success :: if wasLocked then [.lockState d.locked] else [])
  | (d, .error .unbound) => (d, [.keystoreUnbound KeystoreOpError.unbound.message])
  | (d, .error (.other e)) => (d, [.lockedError e])

def handleUnlock (privateKey : Bytes) (d : DaemonState) :
    DaemonState × List DaemonOutput :=
  announceUnlock .unlocked d.locked (d.handleUnlockInner env privateKey)

def handleBindKeystore (key : Bytes) (d : DaemonState) :
    DaemonState × List DaemonOutput :=
  announceUnlock .bound d.locked (d.handleBindKeystoreInner env key)

/-- Locks the daemon: credentials and providers are dropped. Sessions are left alone. -/
def handleLock (d : DaemonState) : DaemonState × List DaemonOutput :=
  ({ d with credentials := ∅, providers := ∅, xCredentials := none, locked := true },
    (if d.locked then [] else [.lockState true]) ++ [.result (.ok ())])

/-- What a credential that was just saved changes at once, before the unlock tail. -/
def takeSaved (service : String) (credential : ServiceCredential)
    (d : DaemonState) : DaemonState :=
  let d :=
    if credential.isX && service == "twitter" then { d with xCredentials := some credential } else d
  match credential.asApiKey with
  | some key => d.resolveAccountProvider env service (some key)
  | none => d

/-- Saves an encrypted credential. The key is checked and the blob is decrypted before it is
written; then the daemon is unlocked with the key. -/
def handleSaveCredential (service : String) (encryptedBlob unlockKey : Bytes)
    (d : DaemonState) : DaemonState × List DaemonOutput :=
  let wasLocked := d.locked
  if unlockKey.length ≠ 32 then
    (d, [.credentialAddFailed service "invalid unlock_key: expected exactly 32 bytes"])
  else
    match d.verifyKeystoreBinding env unlockKey with
    | .error .unbound => (d, [.keystoreUnbound KeystoreOpError.unbound.message])
    | .error (.other e) => (d, [.credentialAddFailed service e])
    | .ok () =>
      match env.decryptWithPrivateKey unlockKey encryptedBlob with
      | .error e =>
        (d, [.credentialAddFailed service
          s!"credential blob failed to decrypt with the provided unlock key: {e}"])
      | .ok plaintext =>
        match env.decodeCredential plaintext with
        | .error e =>
          (d, [.credentialAddFailed service
            s!"credential payload is not a valid ServiceCredential: {e}"])
        | .ok credential =>
          match env.writeBlob with
          | some e => (d, [.credentialAddFailed service s!"failed to save credential: {e}"])
          | none =>
            let d := { d with blobs := d.blobs.insert service encryptedBlob }
            match (d.takeSaved env service credential).unlockTail env unlockKey with
            | (d, .error e) =>
              (d, [.credentialAddFailed service s!"credential saved but unlock failed: {e}"])
            | (d, .ok ()) =>
              (d, [.unlocked, .credentialAdded service] ++
                if wasLocked && !d.locked then [.lockState d.locked] else [])

def handleRemoveCredential (service : String) (d : DaemonState) :
    DaemonState × List DaemonOutput :=
  match env.removeBlob with
  | some e => (d, [.result (.error s!"failed to remove credential: {e}")])
  | none =>
    ({ d with
      blobs := d.blobs.erase service
      credentials := d.credentials.erase service
      providers := d.providers.erase service
      xCredentials := if service = "twitter" then none else d.xCredentials },
      [.result (.ok ())])

/-- Adds an account, and builds its provider when its API key is held. -/
def handleAddAccount (config : AccountConfig) (d : DaemonState) :
    DaemonState × List DaemonOutput :=
  match d.accounts.add env config with
  | (accounts, .error e) => ({ d with accounts := accounts }, [.result (.error e)])
  | (accounts, .ok ()) =>
    let d := { d with accounts := accounts }
    let d :=
      match d.apiKeyFor config.name with
      | some key => d.resolveAccountProvider env config.name (some key)
      | none => d
    (d, [.result (.ok ())])

def handleRemoveAccount (name : String) (d : DaemonState) :
    DaemonState × List DaemonOutput :=
  match d.accounts.remove env name with
  | (accounts, .error e) => ({ d with accounts := accounts }, [.result (.error e)])
  | (accounts, .ok ()) =>
    ({ d with accounts := accounts, providers := d.providers.erase name }, [.result (.ok ())])

/-- Takes an edited accounts file over: the providers of accounts that are gone are dropped, and
those of changed accounts are built anew. -/
def reloadAccounts (fresh : AccountManager) (d : DaemonState) : DaemonState :=
  let old := d.accounts.allConfigs
  let removed := old.filter fun config => !fresh.accounts.contains config.name
  let changed := old.filter fun config =>
    match fresh.accounts[config.name]? with
    | some new => new ≠ config
    | none => false
  let d := { d with
    providers := removed.foldl (fun m config => m.erase config.name) d.providers
    accounts := fresh }
  changed.foldl (fun d config =>
    ({ d with providers := d.providers.erase config.name } : DaemonState).resolveAccountProvider
      env config.name (d.apiKeyFor config.name)) d

/-- Reloads the accounts after an edit of their file, if they were loaded from it. -/
def handleAccountsReload (d : DaemonState) : DaemonState × List DaemonOutput :=
  match d.accounts.configPath with
  | none => (d, [])
  | some path =>
    match AccountManager.load env path with
    | .error _ => (d, [])
    | .ok fresh =>
      if fresh.allConfigs = d.accounts.allConfigs then (d, [])
      else (d.reloadAccounts env fresh, [.accountsChanged])

end DaemonState

/-- The commands of the daemon that change credentials, accounts or providers. -/
inductive DaemonCommand
  | unlock (privateKey : Bytes)
  | bindKeystore (key : Bytes)
  | lock
  | saveCredential (service : String) (encryptedBlob unlockKey : Bytes)
  | removeCredential (service : String)
  | addAccount (config : AccountConfig)
  | removeAccount (name : String)
  | accountsReload
deriving DecidableEq

namespace DaemonState

def handleCommand (env : DaemonEnv) (command : DaemonCommand) (d : DaemonState) :
    DaemonState × List DaemonOutput :=
  match command with
  | .unlock privateKey => d.handleUnlock env privateKey
  | .bindKeystore key => d.handleBindKeystore env key
  | .lock => d.handleLock
  | .saveCredential service encryptedBlob unlockKey =>
    d.handleSaveCredential env service encryptedBlob unlockKey
  | .removeCredential service => d.handleRemoveCredential env service
  | .addAccount config => d.handleAddAccount env config
  | .removeAccount name => d.handleRemoveAccount env name
  | .accountsReload => d.handleAccountsReload env

end DaemonState

/-- The steps of the daemon as far as credentials are concerned: it handles a command, or the process
dies and is started again with the same database. Every command writes at most once to the database,
so a process that dies within a command leaves the database as before or after it. -/
inductive DaemonLabel
  | command (env : DaemonEnv) (command : DaemonCommand)
  | restart (env : DaemonEnv)

namespace DaemonState

def step (label : DaemonLabel) (d : DaemonState) : Option DaemonState :=
  match label with
  | .command env command => some (d.handleCommand env command).1
  | .restart env => some (boot env d.binding d.blobs)

end DaemonState

end Choreo
