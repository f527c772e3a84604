import Choreo.Daemon.Binding

/-!
# Clients that bind a fresh daemon

A daemon whose keystore is not bound yet tells a client so when the client presents a key. The client
then makes a key of its own, records it in the store of known servers and sends it to the daemon,
which adopts the first key that arrives. The store is a file that all clients of a user share; every
change of it reads the whole file and writes the whole file back. A client also records a key when
the daemon confirms one, and it copies the key of a legacy file into the store when the store has
none (`choreo-client-core/src/credentials.rs` and `known_servers.rs`, the frontends'
`handle_daemon_message`). A bridge to a messenger looks for a key when it connects, and without one
it binds the daemon at once (`establish_keystore` in `choreo-im/src/lib.rs`).
-/

namespace Choreo

/-- A private key of a keystore, which always has 32 bytes. -/
def UnlockKey : Type := { bytes : Bytes // bytes.length = 32 }

instance : DecidableEq UnlockKey := fun a b =>
  decidable_of_iff (a.val = b.val) Subtype.ext_iff.symm

/-- What the store knows about one address: the public key that is pinned for it and the key that
unlocks its keystore. Both are base64 texts in the file. -/
structure KnownServerEntry where
  addr : String
  pubkey : Option PublicKey := none
  unlockKey : Option UnlockKey := none
deriving DecidableEq

/-- The store of known servers, as the file holds it. -/
abbrev KnownServers := List KnownServerEntry

namespace KnownServers

/-- The key stored for an address. -/
def unlockKey (addr : String) (servers : KnownServers) : Option UnlockKey :=
  (servers.find? (·.addr = addr)).bind (·.unlockKey)

/-- Records the key of an address; the pin of its entry stays. -/
def setUnlockKey (addr : String) (key : UnlockKey) : KnownServers → KnownServers
  | [] => [{ addr := addr, unlockKey := some key }]
  | entry :: servers =>
    if entry.addr = addr then { entry with unlockKey := some key } :: servers
    else entry :: setUnlockKey addr key servers

@[simp]
theorem unlockKey_setUnlockKey (addr : String) (key : UnlockKey) (servers : KnownServers) :
    (setUnlockKey addr key servers).unlockKey addr = some key := by
  induction servers with
  | nil => simp [setUnlockKey, unlockKey]
  | cons entry servers ih =>
    by_cases h : entry.addr = addr
    · simp [setUnlockKey, unlockKey, h]
    · have hne : decide (entry.addr = addr) = false := decide_eq_false h
      rw [setUnlockKey, if_neg h, unlockKey, List.find?_cons, hne]
      exact ih

end KnownServers

namespace AutoBind

/-! ### The parties -/

/-- How the key of an unlock request is found. A key that the user types is given as base64; a text
that does not decode to 32 bytes is refused at once and leaves no trace here. -/
inductive UnlockMethod
  | raw
  | key (key : UnlockKey)

/-- What a client may ask the daemon with a key that it holds: the unlock request of a new
connection or of the user, or a credential, encrypted for the key that is found. -/
inductive KeyRequest
  | unlock (method : UnlockMethod)
  | addCredential (service : String) (encryptedPayload : UnlockKey → Bytes)

namespace KeyRequest

/-- The key that the user typed, which no store is asked for. -/
def typedKey : KeyRequest → Option UnlockKey
  | unlock (.key key) => some key
  | _ => none

/-- The message that carries a request. -/
def message (key : UnlockKey) : KeyRequest → DaemonCommand
  | unlock _ => .unlock key.val
  | addCredential service encryptedPayload =>
    .saveCredential service (encryptedPayload key) key.val

end KeyRequest

/-- Why a key is recorded: a legacy key is copied before a request goes out with it, a fresh key is
recorded before it is sent, and a pending key is recorded when the daemon confirms it. -/
inductive Purpose
  | adopt (request : KeyRequest)
  | bind
  | confirm

/-- A client in the middle of recording a key: about to load the file, or about to write back what it
loaded with the key in it. -/
inductive StoreAccess
  | load (key : UnlockKey) (purpose : Purpose)
  | persist (view : KnownServers) (key : UnlockKey) (purpose : Purpose)

namespace StoreAccess

/-- The key that is being recorded. -/
def key : StoreAccess → UnlockKey
  | load key _ => key
  | persist _ key _ => key

/-- Why it is recorded. -/
def purpose : StoreAccess → Purpose
  | load _ purpose => purpose
  | persist _ _ purpose => purpose

end StoreAccess

/-- The messages of a client that matter here. -/
inductive ClientMessage
  | subscribeAllActivity
  | command (command : DaemonCommand)

def ClientMessage.bindKey : ClientMessage → Option Bytes
  | command (.bindKeystore key) => some key
  | _ => none

/-- One connection of a client: whether it is a bridge, and has looked for a key, whether it has tried
to bind the daemon, the key it waits for a confirmation of, the access to the store it is in the
middle of, the messages on their way to the daemon and back, and whether the daemon sends it
broadcasts. -/
structure Client where
  bridge : Bool := false
  established : Bool := false
  connected : Bool := true
  attempted : Bool := false
  pendingUnlockKey : Option UnlockKey := none
  access : Option StoreAccess := none
  outbox : List ClientMessage := []
  inbox : List DaemonOutput := []
  subscribed : Bool := false

namespace Client

/-- The keys of the bind messages that are on their way. -/
def sentBinds (client : Client) : List Bytes := client.outbox.filterMap ClientMessage.bindKey

/-- Whether the client may start something new. -/
def ready (client : Client) : Bool := client.connected && client.access.isNone

def send (message : ClientMessage) (client : Client) : Client :=
  { client with outbox := client.outbox ++ [message] }

/-- Keeps a key pending until the daemon confirms it. A bridge does not: it records nothing then. -/
def hold (key : UnlockKey) (client : Client) : Client :=
  if client.bridge then client else { client with pendingUnlockKey := some key }

/-- Sends a request and keeps its key pending. -/
def sendRequest (request : KeyRequest) (key : UnlockKey) (client : Client) : Client :=
  (client.hold key).send (.command (request.message key))

end Client

/-- What does not change: the address of the daemon, the key of the legacy file, if there is one, and
the public keys of the cryptography package. -/
structure Setting where
  addr : String
  legacyKey : Option UnlockKey := none
  publicKey : Bytes → PublicKey

/-- The daemon, the store that the clients share, and the clients. -/
structure State where
  daemon : DaemonState
  knownServers : KnownServers
  clients : ℕ → Client

namespace State

/-- No client has done anything yet. Some are bridges. -/
def initial (daemon : DaemonState) (knownServers : KnownServers) (bridges : ℕ → Bool) :
    State where
  daemon := daemon
  knownServers := knownServers
  clients := fun i => { bridge := bridges i }

/-- Replaces one client. -/
def setClient (c : ℕ) (client : Client) (s : State) : State :=
  { s with clients := Function.update s.clients c client }

end State

/-! ### The steps -/

/-- The steps: a client subscribes, asks for something, goes on with recording a key (which may be
refused) or handles the next message (with the random key it would make); a bridge looks for a key
(with the random key it would make); the daemon serves the next message of a client; a confirmation
of a bind is lost; a connection ends, and the daemon still reads some of the messages that were
sent. -/
inductive Label
  | subscribe (c : ℕ)
  | request (c : ℕ) (request : KeyRequest)
  | establish (c : ℕ) (fresh : UnlockKey)
  | access (c : ℕ) (refused : Bool)
  | handle (c : ℕ) (fresh : UnlockKey)
  | serve (c : ℕ) (env : DaemonEnv)
  | loseBound (c : ℕ)
  | disconnect (c : ℕ) (read : ℕ)

variable (setting : Setting)

/-- A request: with the key that the user typed, or else with the stored key, or else with the key of
the legacy file, which is copied into the store first. Without any key a frontend sends nothing. -/
def Client.request (servers : KnownServers) (request : KeyRequest) (client : Client) : Client :=
  match request.typedKey with
  | some key => client.sendRequest request key
  | none =>
    match servers.unlockKey setting.addr with
    | some key => client.sendRequest request key
    | none =>
      match setting.legacyKey with
      | some key => { client with access := some (.load key (.adopt request)) }
      | none => client

/-- A bridge connects: it unlocks the daemon with the key that it finds. Without any key it binds the
daemon with a fresh one, whether the daemon is bound or not. -/
def Client.establishKeystore (servers : KnownServers) (fresh : UnlockKey) (client : Client) :
    Client :=
  if servers.unlockKey setting.addr = none ∧ setting.legacyKey = none then
    { client with established := true, attempted := true, access := some (.load fresh .bind) }
  else { client with established := true }.request setting servers (.unlock .raw)

variable (key : UnlockKey)

/-- What follows when a key was recorded, or recording it was refused. A legacy key is used in both
cases; a fresh key is sent only if it was recorded. -/
def Client.recorded (purpose : Purpose) (refused : Bool) (client : Client) :
    Client :=
  match purpose with
  | .adopt request => client.sendRequest request key
  | .bind =>
    if refused then client
    else (client.hold key).send (.command (.bindKeystore key.val))
  | .confirm => client

/-- The next step of recording a key. -/
def State.access (c : ℕ) (refused : Bool) (s : State) : Option State :=
  match (s.clients c).access with
  | none => none
  | some (.load key purpose) =>
    some (s.setClient c
      { s.clients c with access := some (.persist s.knownServers key purpose) })
  | some (.persist view key purpose) =>
    let s' := s.setClient c ({ s.clients c with access := none }.recorded key purpose refused)
    some (if refused then s'
      else { s' with knownServers := KnownServers.setUnlockKey setting.addr key view })

/-- A report that the keystore is not bound: the pending key is dropped, and the first report of a
connection makes the client bind the daemon with a fresh key. -/
def Client.onUnbound (fresh : UnlockKey) (client : Client) : Client :=
  if client.attempted then { client with pendingUnlockKey := none }
  else { client with
    pendingUnlockKey := none, attempted := true, access := some (.load fresh .bind) }

def Client.recordConfirmed (client : Client) : Client :=
  match client.pendingUnlockKey with
  | some key => { client with pendingUnlockKey := none, access := some (.load key .confirm) }
  | none => client

/-- How a client handles a message. The broadcast of the lock state is the same message as the answer
to an unlock request, and is handled like it. -/
def Client.handle (fresh : UnlockKey) (message : DaemonOutput) (client : Client) : Client :=
  match message with
  | .unlocked | .bound | .credentialAdded _ | .lockState false => client.recordConfirmed
  | .lockedError _ | .credentialAddFailed _ _ => { client with pendingUnlockKey := none }
  | .keystoreUnbound _ => client.onUnbound fresh
  | .lockState true | .result _ | .accountsChanged => client

/-- Whether an output for client `c` reaches a client `i`: the lock state and the accounts go to every
subscriber, everything else only to `c`. -/
def reaches (c i : ℕ) (client : Client) : DaemonOutput → Bool
  | .lockState _ | .accountsChanged => client.subscribed
  | _ => i = c

def State.deliver (c : ℕ) (outputs : List DaemonOutput) (s : State) : State :=
  { s with clients := fun i =>
      if (s.clients i).connected then
        { s.clients i with
          inbox := (s.clients i).inbox ++ outputs.filter (reaches c i (s.clients i)) }
      else s.clients i }

def State.serve (c : ℕ) (env : DaemonEnv) (message : ClientMessage) (s : State) : State :=
  match message with
  | .subscribeAllActivity =>
    s.setClient c { s.clients c with
      subscribed := true
      inbox := (s.clients c).inbox ++ [.lockState s.daemon.locked] }
  | .command command =>
    let served := s.daemon.handleCommand { env with publicKey := setting.publicKey } command
    { s with daemon := served.1 }.deliver c served.2

def step (label : Label) (s : State) : Option State :=
  match label with
  | .subscribe c =>
    if (s.clients c).ready then
      some (s.setClient c ((s.clients c).send .subscribeAllActivity))
    else none
  | .request c request =>
    if (s.clients c).ready && !(s.clients c).bridge then
      some (s.setClient c ((s.clients c).request setting s.knownServers request))
    else none
  | .establish c fresh =>
    if (s.clients c).ready && (s.clients c).bridge && !(s.clients c).established then
      some (s.setClient c ((s.clients c).establishKeystore setting s.knownServers fresh))
    else none
  | .access c refused => if (s.clients c).connected then s.access setting c refused else none
  | .handle c fresh =>
    if (s.clients c).ready then
      match (s.clients c).inbox with
      | [] => none
      | message :: inbox =>
        some (s.setClient c ({ s.clients c with inbox := inbox }.handle fresh message))
    else none
  | .serve c env =>
    match (s.clients c).outbox with
    | [] => none
    | message :: outbox =>
      some ((s.setClient c { s.clients c with outbox := outbox }).serve setting c env message)
  | .loseBound c =>
    match (s.clients c).inbox with
    | .bound :: inbox => some (s.setClient c { s.clients c with inbox := inbox })
    | _ => none
  | .disconnect c read =>
    some (s.setClient c { s.clients c with
      connected := false
      pendingUnlockKey := none
      access := none
      inbox := []
      outbox := (s.clients c).outbox.take read })

/-! ### The property -/

/-- Every message was handled, and no client is in the middle of anything. -/
def State.Settled (s : State) : Prop :=
  ∀ i, (s.clients i).inbox = [] ∧ (s.clients i).outbox = [] ∧ (s.clients i).access = none

/-- Once the daemon is bound and everything is handled, the store has the key of the binding. -/
def KeyKept (s : State) : Prop :=
  s.Settled → ∀ binding, s.daemon.getKeystoreBinding = some binding →
    ∃ key, s.knownServers.unlockKey setting.addr = some key ∧ setting.publicKey key.val = binding

/-- No bind is under way: the daemon is not bound, no bind message is on its way and no client is in
the middle of recording a key. -/
def State.Free (s : State) : Prop :=
  s.daemon.getKeystoreBinding = none ∧
    ∀ i, (s.clients i).sentBinds = [] ∧ (s.clients i).access = none

/-- What a message must find. The first report of an unbound keystore must find no bind of another
client under way, and a confirmation must not find a pending key other than that of the binding. -/
def MessageAlone (s : State) (client : Client) : DaemonOutput → Prop
  | .unlocked | .bound | .credentialAdded _ | .lockState false =>
    ∀ key, client.pendingUnlockKey = some key →
      s.daemon.getKeystoreBinding = some (setting.publicKey key.val)
  | .keystoreUnbound _ => client.attempted = false → s.Free
  | _ => True

/-- What a step must find, so that keys are made one at a time. A client must not turn to the legacy
key while another one records a fresh key, and a bridge without any key must find no bind of another
client under way. -/
def OneAtATime (label : Label) (s : State) : Prop :=
  match label with
  | .request _ request =>
    request.typedKey = none → s.knownServers.unlockKey setting.addr = none →
      ∀ i access, (s.clients i).access = some access → access.purpose ≠ .bind
  | .establish _ _ =>
    s.knownServers.unlockKey setting.addr = none → (setting.legacyKey = none → s.Free) ∧
      ∀ i access, (s.clients i).access = some access → access.purpose ≠ .bind
  | .handle c _ => ∀ message inbox, (s.clients c).inbox = message :: inbox →
      MessageAlone setting s (s.clients c) message
  | _ => True

/-! ### The phases of a run -/

namespace Client

/-- The client has nothing to do with the store or with a bind. -/
def Idle (client : Client) : Prop := client.sentBinds = [] ∧ client.access = none

/-- The client records at most a legacy key. -/
def Adopting (client : Client) : Prop :=
  client.sentBinds = [] ∧ ∀ access, client.access = some access →
    ∃ request, access.purpose = .adopt request

/-- The client records a fresh key, or has one on its way that the store has. -/
def Binding (servers : KnownServers) (client : Client) : Prop :=
  (client.sentBinds = [] ∧ ∃ access, client.access = some access ∧ access.purpose = .bind) ∨
    (client.access = none ∧
      ∃ key, client.sentBinds = [key.val] ∧ servers.unlockKey setting.addr = some key)

/-- The client records at most a key with the given public key. -/
def Confirming (binding : PublicKey) (client : Client) : Prop :=
  client.sentBinds = [] ∧ ∀ access, client.access = some access →
    access.purpose = .confirm ∧ setting.publicKey access.key.val = binding

theorem Idle.adopting {client : Client} (h : client.Idle) : client.Adopting := by
  refine ⟨h.1, fun access haccess => ?_⟩
  cases h.2.symm.trans haccess

theorem Idle.confirming {setting : Setting} {client : Client} (h : client.Idle)
    (binding : PublicKey) : client.Confirming setting binding := by
  refine ⟨h.1, fun access haccess => ?_⟩
  cases h.2.symm.trans haccess

end Client

/-- The phases of a run in which keys are made one at a time: nobody has made a key, one client binds
the daemon, or the daemon is bound to the stored key. -/
inductive Phase (s : State) : Prop
  | unbound (hbinding : s.daemon.getKeystoreBinding = none)
      (hclients : ∀ i, (s.clients i).Adopting)
  | binding (c : ℕ) (hbinding : s.daemon.getKeystoreBinding = none)
      (hc : (s.clients c).Binding setting s.knownServers)
      (hothers : ∀ i, i ≠ c → (s.clients i).Idle)
  | bound (key : UnlockKey)
      (hbinding : s.daemon.getKeystoreBinding = some (setting.publicKey key.val))
      (hstored : s.knownServers.unlockKey setting.addr = some key)
      (hclients : ∀ i, (s.clients i).Confirming setting (setting.publicKey key.val))

variable {setting} {s s' : State} {c : ℕ} {client : Client}

namespace State

@[simp]
theorem setClient_self : (s.setClient c client).clients c = client :=
  Function.update_self ..

theorem setClient_of_ne {i : ℕ} (h : i ≠ c) :
    (s.setClient c client).clients i = s.clients i :=
  Function.update_of_ne h ..

theorem forall_setClient {P : Client → Prop} (hself : P client)
    (hothers : ∀ i, i ≠ c → P (s.clients i)) (i : ℕ) : P ((s.setClient c client).clients i) := by
  by_cases hi : i = c
  · rw [hi, setClient_self]
    exact hself
  · rw [setClient_of_ne hi]
    exact hothers i hi

end State

/-- The part of a client that the phases depend on. -/
def SameBinds (client client' : Client) : Prop :=
  client'.sentBinds = client.sentBinds ∧ client'.access = client.access

variable {client' : Client}

theorem SameBinds.idle (h : SameBinds client client') (hc : client.Idle) :
    client'.Idle :=
  ⟨h.1.trans hc.1, h.2.trans hc.2⟩

theorem SameBinds.adopting (h : SameBinds client client')
    (hc : client.Adopting) : client'.Adopting :=
  ⟨h.1.trans hc.1, fun access haccess => hc.2 access (h.2.symm.trans haccess)⟩

theorem SameBinds.binding {servers : KnownServers}
    (h : SameBinds client client') (hc : client.Binding setting servers) :
    client'.Binding setting servers := by
  rcases hc with ⟨hsent, access, haccess, hpurpose⟩ | ⟨haccess, key, hsent, hstored⟩
  · exact Or.inl ⟨h.1.trans hsent, access, h.2.trans haccess, hpurpose⟩
  · exact Or.inr ⟨h.2.trans haccess, key, h.1.trans hsent, hstored⟩

theorem SameBinds.confirming {binding : PublicKey}
    (h : SameBinds client client') (hc : client.Confirming setting binding) :
    client'.Confirming setting binding :=
  ⟨h.1.trans hc.1, fun access haccess => hc.2 access (h.2.symm.trans haccess)⟩

theorem Phase.congr (h : Phase setting s)
    (hbinding : s'.daemon.getKeystoreBinding = s.daemon.getKeystoreBinding)
    (hstored : s'.knownServers = s.knownServers)
    (hclients : ∀ i, SameBinds (s.clients i) (s'.clients i)) : Phase setting s' := by
  rcases h with ⟨h1, h2⟩ | ⟨c, h1, h2, h3⟩ | ⟨key, h1, h2, h3⟩
  · exact .unbound (hbinding.trans h1) fun i => (hclients i).adopting (h2 i)
  · refine .binding c (hbinding.trans h1) ?_ fun i hi => (hclients i).idle (h3 i hi)
    rw [hstored]
    exact (hclients c).binding h2
  · refine .bound key (hbinding.trans h1) ?_ fun i => (hclients i).confirming (h3 i)
    rw [hstored]
    exact h2

theorem Phase.setClient (h : Phase setting s) (hsame : SameBinds (s.clients c) client) :
    Phase setting (s.setClient c client) := by
  refine h.congr rfl rfl fun i => ?_
  by_cases hi : i = c
  · rw [hi, State.setClient_self]
    exact hsame
  · rw [State.setClient_of_ne hi]
    exact ⟨rfl, rfl⟩

/-- A client that becomes idle leaves a phase, whatever it was doing. -/
theorem Phase.setIdle (h : Phase setting s) (hidle : client.Idle) :
    Phase setting (s.setClient c client) := by
  rcases h with ⟨h1, h2⟩ | ⟨d, h1, h2, h3⟩ | ⟨key, h1, h2, h3⟩
  · exact .unbound h1 (State.forall_setClient hidle.adopting fun i _ => h2 i)
  · by_cases hd : d = c
    · subst hd
      exact .unbound h1 (State.forall_setClient hidle.adopting fun i hi => (h3 i hi).adopting)
    · refine .binding d h1 ?_ fun i hi => ?_
      · rw [State.setClient_of_ne hd]
        exact h2
      · by_cases hic : i = c
        · rw [hic, State.setClient_self]
          exact hidle
        · rw [State.setClient_of_ne hic]
          exact h3 i hi
  · exact .bound key h1 h2 (State.forall_setClient (hidle.confirming _) fun i _ => h3 i)

variable {message : ClientMessage}

/-! ### What each step keeps -/

theorem sentBinds_send_of_none (h : message.bindKey = none) :
    (client.send message).sentBinds = client.sentBinds := by
  simp [Client.sentBinds, Client.send, List.filterMap_append, h]

theorem KeyRequest.bindKey_message (request : KeyRequest) (key : UnlockKey) :
    (ClientMessage.command (request.message key)).bindKey = none := by
  rcases request with method | ⟨service, encryptedPayload⟩ <;> rfl

theorem sameBinds_hold (key : UnlockKey) : SameBinds client (client.hold key) := by
  rw [Client.hold]
  split_ifs <;> exact ⟨rfl, rfl⟩

theorem sameBinds_sendRequest (request : KeyRequest) (key : UnlockKey) :
    SameBinds client (client.sendRequest request key) :=
  ⟨(sentBinds_send_of_none (request.bindKey_message key)).trans (sameBinds_hold key).1,
    (sameBinds_hold key).2⟩

theorem request_cases (servers : KnownServers) (request : KeyRequest) (client : Client) :
    SameBinds client (client.request setting servers request) ∨
      (request.typedKey = none ∧ servers.unlockKey setting.addr = none ∧
        ∃ key, client.request setting servers request =
          { client with access := some (.load key (.adopt request)) }) := by
  rw [Client.request]
  rcases htyped : request.typedKey with _ | key
  · rcases hstored : servers.unlockKey setting.addr with _ | key
    · rcases hlegacy : setting.legacyKey with _ | key
      · exact Or.inl ⟨rfl, rfl⟩
      · exact Or.inr ⟨rfl, rfl, key, rfl⟩
    · exact Or.inl (sameBinds_sendRequest request key)
  · exact Or.inl (sameBinds_sendRequest request key)

theorem Phase.request {request : KeyRequest} (h : Phase setting s)
    (hsame : SameBinds (s.clients c) client)
    (halone : OneAtATime setting (.request c request) s) :
    Phase setting (s.setClient c (client.request setting s.knownServers request)) := by
  rcases request_cases s.knownServers request client with
    hrequest | ⟨htyped, hnone, key, hrequest⟩
  · exact h.setClient ⟨hrequest.1.trans hsame.1, hrequest.2.trans hsame.2⟩
  · have hnobind := halone htyped hnone
    rw [hrequest]
    rcases h with ⟨h1, h2⟩ | ⟨d, h1, h2, h3⟩ | ⟨key, h1, h2, h3⟩
    · refine .unbound h1 (State.forall_setClient ⟨hsame.1.trans (h2 c).1, ?_⟩ fun i _ => h2 i)
      rintro _ ⟨⟩
      exact ⟨request, rfl⟩
    · rcases h2 with ⟨-, access, haccess, hbind⟩ | ⟨-, key, -, hstored⟩
      · exact absurd hbind (hnobind d access haccess)
      · cases hstored.symm.trans hnone
    · cases h2.symm.trans hnone

/-- A client that finds no bind of another one under way records a fresh key. -/
theorem Phase.mint {fresh : UnlockKey} (hfree : s.Free)
    (hsent : client.sentBinds = (s.clients c).sentBinds)
    (haccess : client.access = some (.load fresh .bind)) :
    Phase setting (s.setClient c client) := by
  refine .binding c hfree.1 (Or.inl ?_) fun i hi => ?_
  · rw [State.setClient_self]
    exact ⟨hsent.trans (hfree.2 c).1, _, haccess, rfl⟩
  · rw [State.setClient_of_ne hi]
    exact hfree.2 i

theorem Phase.establish {fresh : UnlockKey} (h : Phase setting s)
    (halone : OneAtATime setting (.establish c fresh) s) :
    Phase setting
      (s.setClient c ((s.clients c).establishKeystore setting s.knownServers fresh)) := by
  rw [Client.establishKeystore]
  split_ifs with hnone
  · exact .mint ((halone hnone.1).1 hnone.2) rfl rfl
  · exact h.request ⟨rfl, rfl⟩ fun _ hstored => (halone hstored).2

theorem sentBinds_bind (h : client.sentBinds = []) :
    ((client.hold key).send (.command (.bindKeystore key.val))).sentBinds = [key.val] := by
  have houtbox : (client.hold key).outbox.filterMap ClientMessage.bindKey = [] :=
    (sameBinds_hold key).1.trans h
  simp [Client.sentBinds, Client.send, ClientMessage.bindKey, houtbox]

theorem recorded_refused (purpose : Purpose) (h : client.sentBinds = []) :
    ({ client with access := none }.recorded key purpose true).Idle := by
  rcases purpose with request | _ | _
  · exact (sameBinds_sendRequest request key).idle ⟨h, rfl⟩
  · exact ⟨h, rfl⟩
  · exact ⟨h, rfl⟩

variable {purpose : Purpose}

theorem recorded_of_ne_bind (refused : Bool)
    (h : client.sentBinds = []) (hpurpose : purpose ≠ .bind) :
    ({ client with access := none }.recorded key purpose refused).Idle := by
  rcases purpose with request | _ | _
  · exact (sameBinds_sendRequest request key).idle ⟨h, rfl⟩
  · exact absurd rfl hpurpose
  · exact ⟨h, rfl⟩

theorem Phase.sentBinds_of_access {access : StoreAccess} (h : Phase setting s)
    (haccess : (s.clients c).access = some access) : (s.clients c).sentBinds = [] := by
  rcases h with ⟨-, h2⟩ | ⟨d, -, h2, h3⟩ | ⟨key, -, -, h3⟩
  · exact (h2 c).1
  · by_cases hd : c = d
    · subst hd
      rcases h2 with ⟨hsent, -⟩ | ⟨hnone, -⟩
      · exact hsent
      · cases hnone.symm.trans haccess
    · exact (h3 c hd).1
  · exact (h3 c).1

/-- Loading the file changes nothing but how far the access is. -/
theorem Phase.load {key : UnlockKey} (h : Phase setting s)
    (haccess : (s.clients c).access = some (.load key purpose)) :
    Phase setting (s.setClient c
      { s.clients c with access := some (.persist s.knownServers key purpose) }) := by
  rcases h with ⟨h1, h2⟩ | ⟨d, h1, h2, h3⟩ | ⟨bound, h1, h2, h3⟩
  · refine .unbound h1 (State.forall_setClient ⟨(h2 c).1, ?_⟩ fun i _ => h2 i)
    rintro _ ⟨⟩
    exact (h2 c).2 (.load key purpose) haccess
  · have hd : c = d := by
      by_contra hne
      cases (h3 c hne).2.symm.trans haccess
    subst hd
    refine .binding c h1 ?_ fun i hi => ?_
    · rw [State.setClient_self]
      rcases h2 with ⟨hsent, access, hsome, hbind⟩ | ⟨hnone, -⟩
      · rw [haccess] at hsome
        cases hsome
        exact Or.inl ⟨hsent, _, rfl, hbind⟩
      · cases hnone.symm.trans haccess
    · rw [State.setClient_of_ne hi]
      exact h3 i hi
  · refine .bound bound h1 h2 (State.forall_setClient ⟨(h3 c).1, ?_⟩ fun i _ => h3 i)
    rintro _ ⟨⟩
    exact (h3 c).2 (.load key purpose) haccess

/-- Writing the file back with a key. A fresh key is then on its way and in the store; a key that is
confirmed is that of the binding. -/
theorem Phase.persist {view : KnownServers} {key : UnlockKey}
    (h : Phase setting s) (haccess : (s.clients c).access = some (.persist view key purpose)) :
    Phase setting
      { s.setClient c ({ s.clients c with access := none }.recorded key purpose false) with
        knownServers := KnownServers.setUnlockKey setting.addr key view } := by
  have hsent := h.sentBinds_of_access haccess
  rcases h with ⟨h1, h2⟩ | ⟨d, h1, h2, h3⟩ | ⟨bound, h1, h2, h3⟩
  · obtain ⟨request, hpurpose⟩ := (h2 c).2 _ haccess
    have hne : purpose ≠ .bind := by
      rintro rfl
      cases hpurpose
    exact .unbound h1 (State.forall_setClient (s := s)
      (recorded_of_ne_bind key false hsent hne).adopting fun i _ => h2 i)
  · have hd : c = d := by
      by_contra hne
      cases (h3 c hne).2.symm.trans haccess
    subst hd
    have hbind : purpose = .bind := by
      rcases h2 with ⟨-, access, hsome, hbind⟩ | ⟨hnone, -⟩
      · rw [haccess] at hsome
        cases hsome
        exact hbind
      · cases hnone.symm.trans haccess
    subst hbind
    refine .binding c h1 (Or.inr ⟨?_, key, ?_, KnownServers.unlockKey_setUnlockKey ..⟩)
      fun i hi => ?_
    · exact (congrArg Client.access State.setClient_self).trans (sameBinds_hold key).2
    · exact (congrArg Client.sentBinds State.setClient_self).trans (sentBinds_bind key hsent)
    · exact (State.setClient_of_ne (s := s) hi).symm ▸ h3 i hi
  · obtain ⟨hconfirm, hkey⟩ := (h3 c).2 _ haccess
    have hne : purpose ≠ .bind := by
      rintro rfl
      cases hconfirm
    have hidle := recorded_of_ne_bind key false hsent hne
    have hkey' : setting.publicKey key.val = setting.publicKey bound.val := hkey
    refine .bound key (h1.trans (congrArg some hkey'.symm)) (KnownServers.unlockKey_setUnlockKey ..)
      (State.forall_setClient (s := s) (hidle.confirming _) fun i _ => ?_)
    rw [hkey']
    exact h3 i

theorem Phase.access {refused : Bool} (h : Phase setting s)
    (hstep : s.access setting c refused = some s') : Phase setting s' := by
  rw [State.access] at hstep
  rcases haccess : (s.clients c).access with _ | ⟨key, purpose⟩ | ⟨view, key, purpose⟩
  · rw [haccess] at hstep
    cases hstep
  · rw [haccess] at hstep
    cases hstep
    exact h.load haccess
  · rw [haccess] at hstep
    cases refused
    · cases hstep
      exact h.persist haccess
    · cases hstep
      exact h.setIdle (recorded_refused key purpose (h.sentBinds_of_access haccess))

theorem recordConfirmed_cases (client : Client) :
    SameBinds client client.recordConfirmed ∨
      ∃ key, client.pendingUnlockKey = some key ∧ client.recordConfirmed =
        { client with pendingUnlockKey := none, access := some (.load key .confirm) } := by
  rw [Client.recordConfirmed]
  rcases hpending : client.pendingUnlockKey with _ | key
  · exact Or.inl ⟨rfl, rfl⟩
  · exact Or.inr ⟨key, rfl, rfl⟩

theorem Phase.recordConfirmed (h : Phase setting s) (hsame : SameBinds (s.clients c) client)
    (halone : ∀ key, client.pendingUnlockKey = some key →
      s.daemon.getKeystoreBinding = some (setting.publicKey key.val)) :
    Phase setting (s.setClient c client.recordConfirmed) := by
  rcases recordConfirmed_cases client with hidle | ⟨key, hpending, hrecord⟩
  · exact h.setClient ⟨hidle.1.trans hsame.1, hidle.2.trans hsame.2⟩
  · have hbinding := halone key hpending
    rw [hrecord]
    rcases h with ⟨h1, -⟩ | ⟨d, h1, -, -⟩ | ⟨bound, h1, h2, h3⟩
    · cases h1.symm.trans hbinding
    · cases h1.symm.trans hbinding
    · refine .bound bound h1 h2 (State.forall_setClient ⟨hsame.1.trans (h3 c).1, ?_⟩ fun i _ => h3 i)
      rintro _ ⟨⟩
      exact ⟨rfl, Option.some.inj (hbinding.symm.trans h1)⟩

theorem Phase.onUnbound {fresh : UnlockKey} (h : Phase setting s)
    (hsame : SameBinds (s.clients c) client) (halone : client.attempted = false → s.Free) :
    Phase setting (s.setClient c (client.onUnbound fresh)) := by
  rw [Client.onUnbound]
  rcases hattempted : client.attempted with _ | _
  · exact .mint (halone hattempted) hsame.1 rfl
  · exact h.setClient hsame

/-- A client that handles a message: a confirmation, a report of an unbound keystore, or a message
that leaves the store and the bind messages alone. -/
theorem Phase.handle {fresh : UnlockKey} {message : DaemonOutput} (h : Phase setting s)
    (hsame : SameBinds (s.clients c) client) (halone : MessageAlone setting s client message) :
    Phase setting (s.setClient c (client.handle fresh message)) := by
  rcases message with _ | _ | error | error | service | ⟨service, error⟩ | result | locked | _
  · exact h.recordConfirmed hsame halone
  · exact h.recordConfirmed hsame halone
  · exact h.onUnbound hsame halone
  · exact h.setClient hsame
  · exact h.recordConfirmed hsame halone
  · exact h.setClient hsame
  · exact h.setClient hsame
  · rcases locked with _ | _
    · exact h.recordConfirmed hsame halone
    · exact h.setClient hsame
  · exact h.setClient hsame

theorem sameBinds_deliver (outputs : List DaemonOutput) (i : ℕ) :
    SameBinds (s.clients i) ((s.deliver c outputs).clients i) := by
  rw [State.deliver]
  dsimp only
  split_ifs <;> exact ⟨rfl, rfl⟩

theorem Phase.serve {env : DaemonEnv} (h : Phase setting s)
    (hmessage : message.bindKey = none) : Phase setting (s.serve setting c env message) := by
  rcases message with _ | command
  · exact h.setClient ⟨rfl, rfl⟩
  · refine h.congr ?_ rfl (sameBinds_deliver (s := { s with daemon := _ }) _)
    rcases (DaemonState.handleCommand_checked { env with publicKey := setting.publicKey } command
      s.daemon).binding with hsame | ⟨key, rfl, -⟩
    · exact hsame
    · cases hmessage

theorem Phase.serveBind {env : DaemonEnv} {key : UnlockKey}
    (hbinding : s.daemon.getKeystoreBinding = none)
    (hstored : s.knownServers.unlockKey setting.addr = some key)
    (hclients : ∀ i, (s.clients i).Idle) :
    Phase setting (s.serve setting c env (.command (.bindKeystore key.val))) := by
  have hidle : ∀ i, ((s.serve setting c env (.command (.bindKeystore key.val))).clients i).Idle :=
    fun i => (sameBinds_deliver (s := { s with daemon := _ }) _ i).idle (hclients i)
  rcases @DaemonState.getKeystoreBinding_handleBindKeystore
    { env with publicKey := setting.publicKey } key.val s.daemon hbinding with hnone | hsome
  · exact .unbound hnone fun i => (hidle i).adopting
  · exact .bound key hsome hstored fun i => (hidle i).confirming _

theorem sentBinds_take {outbox : List ClientMessage}
    (houtbox : client.outbox = message :: outbox) :
    client.sentBinds =
      message.bindKey.toList ++ { client with outbox := outbox }.sentBinds := by
  rcases hkey : message.bindKey with _ | key <;>
    simp [Client.sentBinds, houtbox, hkey]

theorem Phase.serveNext {env : DaemonEnv} {outbox : List ClientMessage}
    (h : Phase setting s) (houtbox : (s.clients c).outbox = message :: outbox) :
    Phase setting
      ((s.setClient c { s.clients c with outbox := outbox }).serve setting c env message) := by
  have hsent := sentBinds_take houtbox
  rcases hkey : message.bindKey with _ | bytes
  · rw [hkey] at hsent
    exact (h.setClient ⟨hsent.symm, rfl⟩).serve hkey
  · rw [hkey] at hsent
    rcases h with ⟨-, h2⟩ | ⟨d, h1, h2, h3⟩ | ⟨bound, -, -, h3⟩
    · cases (h2 c).1.symm.trans hsent
    · have hd : d = c := by
        by_contra hne
        cases (h3 c (Ne.symm hne)).1.symm.trans hsent
      subst hd
      rcases h2 with ⟨hnil, -⟩ | ⟨haccess, key, hone, hstored⟩
      · cases hnil.symm.trans hsent
      · obtain ⟨rfl, hrest⟩ := List.cons.inj (hone.symm.trans hsent)
        have hmessage : message = .command (.bindKeystore key.val) := by
          rcases message with _ | command
          · cases hkey
          · rcases command <;> cases hkey
            rfl
        rw [hmessage]
        refine Phase.serveBind h1 hstored (State.forall_setClient ⟨hrest.symm, haccess⟩ h3)
    · cases (h3 c).1.symm.trans hsent

theorem Phase.length_sentBinds (h : Phase setting s) (c : ℕ) :
    (s.clients c).sentBinds.length ≤ 1 := by
  rcases h with ⟨-, h2⟩ | ⟨d, -, h2, h3⟩ | ⟨bound, -, -, h3⟩
  · simp [(h2 c).1]
  · by_cases hd : c = d
    · subst hd
      rcases h2 with ⟨hsent, -⟩ | ⟨-, key, hsent, -⟩ <;> simp [hsent]
    · simp [(h3 c hd).1]
  · simp [(h3 c).1]

/-- A connection that ends: some of the messages that were sent are still read. -/
theorem Phase.disconnect {read : ℕ} (h : Phase setting s)
    (hclient : client.outbox = (s.clients c).outbox.take read) (haccess : client.access = none) :
    Phase setting (s.setClient c client) := by
  have hpre : client.sentBinds <+: (s.clients c).sentBinds := by
    rw [Client.sentBinds, hclient]
    exact (List.take_prefix read _).filterMap ClientMessage.bindKey
  by_cases hnil : client.sentBinds = []
  · exact h.setIdle ⟨hnil, haccess⟩
  · have hsent : client.sentBinds = (s.clients c).sentBinds := by
      refine hpre.eq_of_length_le ((h.length_sentBinds c).trans ?_)
      exact List.length_pos_iff.2 hnil
    refine h.setClient ⟨hsent, haccess.trans ?_⟩
    rcases hold : (s.clients c).access with _ | access
    · rfl
    · exact absurd (hsent.trans (h.sentBinds_of_access hold)) hnil

/-- One step of a run in which keys are made one at a time. -/
theorem Phase.step {label : Label} (h : Phase setting s) (halone : OneAtATime setting label s)
    (hstep : step setting label s = some s') : Phase setting s' := by
  rcases label with
    c | ⟨c, request⟩ | ⟨c, fresh⟩ | ⟨c, refused⟩ | ⟨c, fresh⟩ | ⟨c, env⟩ | c | ⟨c, read⟩
  · simp only [AutoBind.step] at hstep
    split_ifs at hstep
    cases hstep
    exact h.setClient ⟨sentBinds_send_of_none rfl, rfl⟩
  · simp only [AutoBind.step] at hstep
    split_ifs at hstep
    cases hstep
    exact h.request ⟨rfl, rfl⟩ halone
  · simp only [AutoBind.step] at hstep
    split_ifs at hstep
    cases hstep
    exact h.establish halone
  · simp only [AutoBind.step] at hstep
    split_ifs at hstep
    exact h.access hstep
  · simp only [AutoBind.step] at hstep
    split_ifs at hstep
    rcases hinbox : (s.clients c).inbox with _ | ⟨message, inbox⟩
    · rw [hinbox] at hstep
      cases hstep
    · rw [hinbox] at hstep
      cases hstep
      exact h.handle ⟨rfl, rfl⟩ (halone message inbox hinbox)
  · simp only [AutoBind.step] at hstep
    rcases houtbox : (s.clients c).outbox with _ | ⟨message, outbox⟩
    · rw [houtbox] at hstep
      cases hstep
    · rw [houtbox] at hstep
      cases hstep
      exact h.serveNext houtbox
  · simp only [AutoBind.step] at hstep
    split at hstep
    · cases hstep
      exact h.setClient ⟨rfl, rfl⟩
    · cases hstep
  · cases hstep
    exact h.disconnect rfl rfl

namespace Sample

def host : Setting where
  addr := "host:9443"
  publicKey := Choreo.Sample.daemonEnv.publicKey

/-- A key of equal bytes. -/
def keyOf (byte : UInt8) : UnlockKey := ⟨List.replicate 32 byte, List.length_replicate⟩

/-- A user who types some key to unlock a daemon that is not bound, and the answer. -/
def told (c : ℕ) : List Label :=
  [.request c (.unlock (.key (keyOf 9))), .serve c Choreo.Sample.daemonEnv]

/-- A client handles a message and records a key. -/
def records (c : ℕ) (fresh : UnlockKey) : List Label :=
  [.handle c fresh, .access c false, .access c false]

/-- A client that records a key sends it, and is answered. -/
def sends (c : ℕ) : List Label :=
  [.access c false, .access c false, .serve c Choreo.Sample.daemonEnv]

/-- A bridge finds a key, unlocks the daemon with it and handles the answer. -/
def unlocks (c : ℕ) : List Label :=
  [.establish c (keyOf 3), .serve c Choreo.Sample.daemonEnv, .handle c (keyOf 0)]

end Sample

/-- Two bridges find no key. The daemon adopts the key of the first one, and the second one has
recorded its own over it. -/
theorem not_keyKept_bridges :
    ∃ s, StepSystem.run (step Sample.host)
        ([.establish 0 (Sample.keyOf 1), .establish 1 (Sample.keyOf 2)] ++ Sample.sends 0 ++
          Sample.sends 1 ++ [.handle 0 (Sample.keyOf 0), .handle 1 (Sample.keyOf 0)])
        (.initial {} [] fun _ => true) = some s ∧ ¬ KeyKept Sample.host s := by
  refine ⟨_, rfl, fun hkept => ?_⟩
  obtain ⟨key, hstored, hkey⟩ := hkept (by
    rintro (_ | _ | i) <;> exact ⟨rfl, rfl, rfl⟩) (Sample.host.publicKey (Sample.keyOf 1).val) rfl
  cases hstored
  revert hkey
  decide

end AutoBind

end Choreo
