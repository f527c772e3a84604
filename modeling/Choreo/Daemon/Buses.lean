import Choreo.Session.Subscribers
import Mathlib.Data.Nat.PSub

/-!
# The three buses of session events

An event of a session reaches its clients on up to three ways. The session thread enqueues it to its
own subscribers and forwards it to the daemon, whose thread enqueues it to the clients that subscribe
to all activity, but not to those it knows as subscribers of the session. A change of the status is
sent a third time, to the clients that follow the list of sessions and get it on neither other way.
The session threads and the connections write into one channel of the daemon, one message at a time.

The events of a session are numbered as the session emits them; the numbers travel with the messages
and are read by nobody.

## Main definitions

* `Post`, `posts`: the single actions of which the outputs of a session thread consist.
* `Bus`, `Bus.step`: the sessions, the channel of the daemon and its three maps.
* `Bus.received`: the numbered events of a session that were enqueued to a client.
* `Bus.Delivers`: a client got the events of a session exactly once and in their order.
-/

namespace Choreo

/-- An event enqueued to a client: the session it is about and, if the session emitted it, its
number. The answers to an attach and the daemon's own notices have none. -/
structure Delivery where
  clientId : ℕ
  sessionId : ℕ
  number : Option ℕ
  event : SessionEvent

def Delivery.numberedFor (start clientId sessionId : ℕ) (d : Delivery) : Option (SessionEvent × ℕ) :=
  if d.clientId = clientId ∧ d.sessionId = sessionId then
    d.number.bind fun n => if start ≤ n then some (d.event, n) else none
  else none

/-- What a session thread does with an output, one action at a time. -/
inductive Post
  | broadcastActivity (number : ℕ) (event : SessionEvent)
  | enqueue (clientId number : ℕ) (event : SessionEvent)
  | sendUnchecked (clientId : ℕ) (event : SessionEvent)
  | broadcastSessionStatus (number : Option ℕ) (status : SessionStatus)
  | trackSessionSubscription (clientId : ℕ)
  | untrackSessionSubscription (clientId : ℕ)
  | sessionExited

/-- The events among the outputs. -/
def events (outputs : List Output) : List SessionEvent :=
  outputs.filterMap fun
    | .broadcast event _ => some event
    | _ => none

/-- The actions of one output, when `n` events were emitted before it. A broadcast is forwarded to
the daemon before it is enqueued to the subscribers; a change of the status is the last event before
it once more. -/
def Output.posts (n : ℕ) : Output → List Post
  | .broadcast event recipients =>
    .broadcastActivity n event :: recipients.map fun clientId => .enqueue clientId n event
  | .direct clientId event => [.sendUnchecked clientId event]
  | .broadcastSessionStatus status => [.broadcastSessionStatus n.ppred status]
  | .trackSessionSubscription clientId => [.trackSessionSubscription clientId]
  | .untrackSessionSubscription clientId => [.untrackSessionSubscription clientId]
  | .sessionExited => [.sessionExited]
  | _ => []

/-- The actions of a list of outputs. -/
def posts : ℕ → List Output → List Post
  | _, [] => []
  | n, o :: os => o.posts n ++ posts (n + (events [o]).length) os

/-- The commands of the daemon that concern the delivery of session events. -/
inductive BusCommand
  | broadcastActivity (sessionId number : ℕ) (event : SessionEvent)
  | broadcastSessionStatus (sessionId : ℕ) (number : Option ℕ) (status : SessionStatus)
  | trackSessionSubscription (clientId sessionId : ℕ)
  | untrackSessionSubscription (clientId sessionId : ℕ)
  | sessionExited (sessionId : ℕ)
  | registerClientWriter (clientId : ℕ)
  | registerSummarySubscriber (clientId : ℕ)
  | unregisterSummarySubscriber (clientId : ℕ)
  | registerActivitySubscriber (clientId : ℕ)
  | unregisterActivitySubscriber (clientId : ℕ)
  | evictClient (clientId : ℕ)
  | clientDisconnected (clientId : ℕ)

namespace BusCommand

/-- Whether a command comes from a connection, or from a fan-out that found a client to evict. -/
def isRequest : BusCommand → Bool
  | .broadcastActivity .. | .broadcastSessionStatus .. | .trackSessionSubscription ..
  | .untrackSessionSubscription .. | .sessionExited _ => false
  | _ => true

/-- The session whose thread sent a command. -/
def origin : BusCommand → Option ℕ
  | .broadcastActivity sessionId .. | .broadcastSessionStatus sessionId .. => some sessionId
  | .trackSessionSubscription _ sessionId | .untrackSessionSubscription _ sessionId
  | .sessionExited sessionId => some sessionId
  | _ => none

/-- Whether a command takes a client off for good. -/
def dismisses (clientId : ℕ) : BusCommand → Bool
  | .evictClient id | .clientDisconnected id => id == clientId
  | _ => false

end BusCommand

/-- A session on the bus: its thread, what the thread still has to do with the outputs of its last
command, and every event it emitted. -/
structure Line where
  system : System := System.init {}
  outbox : List Post := []
  emitted : List SessionEvent := []

/-- What the daemon finds when it handles a command: the time of the last change that its index has
for the session, and the clients that the fan-outs of the command found to lag too far behind. -/
structure HandleEnv where
  lastModified : Option ℤ
  evicted : List ℕ := []

/-- The sessions and the part of the daemon that delivers their events: the channel, the writers of
the connections, the subscribers of the two buses of the daemon, what the daemon knows of the
subscribers of the sessions, the clients whose receivers are gone, and everything enqueued. -/
structure Bus where
  lines : Std.ExtTreeMap ℕ Line := ∅
  channel : List BusCommand := []
  clientWriters : Std.ExtTreeSet ℕ := ∅
  summarySubscribers : Std.ExtTreeSet ℕ := ∅
  activitySubscribers : Std.ExtTreeSet ℕ := ∅
  clientSubscribedSessions : Std.ExtTreeMap ℕ (Std.ExtTreeSet ℕ) := ∅
  closed : Std.ExtTreeSet ℕ := ∅
  enqueued : List Delivery := []

namespace Bus

def line (b : Bus) (sessionId : ℕ) : Line := b.lines[sessionId]?.getD {}

variable (sessionId : ℕ)

/-- Changes the session with an id. -/
def modifyLine (f : Line → Line) (b : Bus) : Bus :=
  { b with lines := b.lines.insert sessionId (f (b.line sessionId)) }

variable (clientId sessionId : ℕ)

def tracks (b : Bus) : Bool :=
  b.clientSubscribedSessions[clientId]?.any fun sessions => sessions.contains sessionId

/-- The subscribers that a fan-out keeps: the receivers of the others are found to be gone. -/
def retained (skip : ℕ → Bool) (subscribers : Std.ExtTreeSet ℕ) (b : Bus) : Std.ExtTreeSet ℕ :=
  subscribers.filter fun clientId => skip clientId || !b.closed.contains clientId

/-- What a fan-out enqueues. -/
def fanOut (number : Option ℕ) (event : SessionEvent) (skip : ℕ → Bool)
    (subscribers : Std.ExtTreeSet ℕ) (b : Bus) : List Delivery :=
  (subscribers.toList.filter fun clientId => !skip clientId && !b.closed.contains clientId).map
    fun clientId => ⟨clientId, sessionId, number, event⟩

def deliver (number : Option ℕ) (event : SessionEvent) (b : Bus) : Bus :=
  if b.closed.contains clientId then b
  else { b with enqueued := b.enqueued ++ [⟨clientId, sessionId, number, event⟩] }

def fanOutActivity (number : Option ℕ) (event : SessionEvent) (skip : ℕ → Bool)
    (b : Bus) : Bus :=
  { b with
    activitySubscribers := b.retained skip b.activitySubscribers
    enqueued := b.enqueued ++ b.fanOut sessionId number event skip b.activitySubscribers }

/-- Fans an event out to the clients that follow the list of sessions. -/
def fanOutSummary (number : Option ℕ) (event : SessionEvent) (skip : ℕ → Bool)
    (b : Bus) : Bus :=
  { b with
    summarySubscribers := b.retained skip b.summarySubscribers
    enqueued := b.enqueued ++ b.fanOut sessionId number event skip b.summarySubscribers }

/-- Passes an event of a session on to the clients that subscribe to all activity, unless they
subscribe to the session. -/
def handleBroadcastActivity (sessionId number : ℕ) (event : SessionEvent) (b : Bus) : Bus :=
  b.fanOutActivity sessionId (some number) event fun clientId => b.tracks clientId sessionId

variable (env : HandleEnv)

/-- Tells the clients that follow the list of sessions of a change of the status, unless they learn
it as subscribers of the session or of all activity, or the session is deleted. -/
def handleBroadcastSessionStatus (sessionId : ℕ) (number : Option ℕ)
    (status : SessionStatus) (b : Bus) : Bus :=
  match env.lastModified with
  | some lastModified =>
    b.fanOutSummary sessionId number (.sessionStatusChanged status lastModified)
      fun clientId => b.tracks clientId sessionId || b.activitySubscribers.contains clientId
  | none => b

/-- Announces that the thread of a session is over, unless the session is deleted. -/
def handleSessionExited (sessionId : ℕ) (b : Bus) : Bus :=
  match env.lastModified with
  | some lastModified =>
    let b := b.fanOutActivity sessionId none (.sessionStatusChanged .sleeping lastModified)
      fun _ => false
    b.fanOutSummary sessionId none (.sessionStatusChanged .sleeping lastModified)
      fun clientId => b.activitySubscribers.contains clientId
  | none => b

def handleTrackSessionSubscription (b : Bus) : Bus :=
  { b with
    clientSubscribedSessions := b.clientSubscribedSessions.insert clientId
      ((b.clientSubscribedSessions[clientId]?.getD ∅).insert sessionId) }

/-- Strikes a client off as a subscriber of a session. -/
def handleUntrackSessionSubscription (b : Bus) : Bus :=
  match b.clientSubscribedSessions[clientId]? with
  | some sessions =>
    { b with
      clientSubscribedSessions :=
        if (sessions.erase sessionId).isEmpty then b.clientSubscribedSessions.erase clientId
        else b.clientSubscribedSessions.insert clientId (sessions.erase sessionId) }
  | none => b

/-- Tells a session, if its thread runs, to forget a subscriber. -/
def removeSubscriber (clientId : ℕ) (b : Bus) (sessionId : ℕ) : Bus :=
  b.modifyLine sessionId fun x =>
    if x.system.live then
      { x with system := { x.system with queue := x.system.queue ++ [.removeSubscriber clientId] } }
    else x

/-- Takes a client off the sessions that it is known to subscribe to. -/
def removeClientFromSessions (clientId : ℕ) (b : Bus) : Bus :=
  match b.clientSubscribedSessions[clientId]? with
  | some sessions =>
    sessions.toList.foldl (removeSubscriber clientId)
      { b with clientSubscribedSessions := b.clientSubscribedSessions.erase clientId }
  | none => b

/-- Forgets a client that left. -/
def handleClientDisconnected (clientId : ℕ) (b : Bus) : Bus :=
  let b := { b with
    summarySubscribers := b.summarySubscribers.erase clientId
    activitySubscribers := b.activitySubscribers.erase clientId }
  let b := b.removeClientFromSessions clientId
  { b with clientWriters := b.clientWriters.erase clientId }

/-- Disconnects a client that lags too far behind; nothing happens for a client without a writer. -/
def handleEvictClient (b : Bus) (clientId : ℕ) : Bus :=
  if b.clientWriters.contains clientId then b.handleClientDisconnected clientId else b

/-- The dispatch of a command of the daemon. -/
def handleCommand (command : BusCommand) (b : Bus) : Bus :=
  match command with
  | .broadcastActivity sessionId number event => b.handleBroadcastActivity sessionId number event
  | .broadcastSessionStatus sessionId number status =>
    b.handleBroadcastSessionStatus env sessionId number status
  | .trackSessionSubscription clientId sessionId =>
    b.handleTrackSessionSubscription clientId sessionId
  | .untrackSessionSubscription clientId sessionId =>
    b.handleUntrackSessionSubscription clientId sessionId
  | .sessionExited sessionId => b.handleSessionExited env sessionId
  | .registerClientWriter clientId => { b with clientWriters := b.clientWriters.insert clientId }
  | .registerSummarySubscriber clientId =>
    { b with summarySubscribers := b.summarySubscribers.insert clientId }
  | .unregisterSummarySubscriber clientId =>
    { b with summarySubscribers := b.summarySubscribers.erase clientId }
  | .registerActivitySubscriber clientId =>
    { b with activitySubscribers := b.activitySubscribers.insert clientId }
  | .unregisterActivitySubscriber clientId =>
    { b with activitySubscribers := b.activitySubscribers.erase clientId }
  | .evictClient clientId => b.handleEvictClient clientId
  | .clientDisconnected clientId => b.handleClientDisconnected clientId

/-- The daemon handles a command, and disconnects the clients that the fan-outs found to lag. -/
def handleStep (command : BusCommand) (b : Bus) : Bus :=
  env.evicted.foldl handleEvictClient (b.handleCommand env command)

def send (command : BusCommand) (b : Bus) : Bus := { b with channel := b.channel ++ [command] }

/-- A session thread does the next thing that its last command made it do. -/
def post (p : Post) (b : Bus) : Bus :=
  match p with
  | .broadcastActivity number event => b.send (.broadcastActivity sessionId number event)
  | .enqueue clientId number event => b.deliver clientId sessionId (some number) event
  | .sendUnchecked clientId event => b.deliver clientId sessionId none event
  | .broadcastSessionStatus number status => b.send (.broadcastSessionStatus sessionId number status)
  | .trackSessionSubscription clientId => b.send (.trackSessionSubscription clientId sessionId)
  | .untrackSessionSubscription clientId => b.send (.untrackSessionSubscription clientId sessionId)
  | .sessionExited => b.send (.sessionExited sessionId)

end Bus

/-- A session after a step of its thread or worker. -/
def Line.advance (system : System) (x : Line) : Line :=
  let outputs := x.system.outputsBetween system
  { system := system
    outbox := x.outbox ++ posts x.emitted.length outputs
    emitted := x.emitted ++ events outputs }

/-- Whether a session can make a step: a thread takes its next command, and a new thread is started,
after everything of the last command is done, and only the daemon takes subscribers off. -/
def Line.admits (label : SystemLabel) (x : Line) : Bool :=
  match label with
  | .send (.removeSubscriber _) => false
  | .process _ => x.outbox.isEmpty
  | .restart _ => x.outbox.isEmpty && !x.system.live
  | _ => true

/-- The steps of the bus: a session makes a step, a session thread does the next thing of its last
command, a connection sends a command, the daemon handles the next one, or a receiver goes away. -/
inductive BusLabel
  | session (sessionId : ℕ) (label : SystemLabel)
  | post (sessionId : ℕ)
  | request (command : BusCommand)
  | handle (env : HandleEnv)
  | close (clientId : ℕ)

namespace Bus

/-- A session sees which receivers are gone. -/
def observe (b : Bus) : SystemLabel → SystemLabel
  | .process env => .process { env with gone := fun clientId => b.closed.contains clientId }
  | label => label

def step (setup : AgentSetup) (label : BusLabel) (b : Bus) : Option Bus :=
  match label with
  | .session sessionId label =>
    if (b.line sessionId).admits label then
      ((b.line sessionId).system.step setup (b.observe label)).map fun system =>
        b.modifyLine sessionId (Line.advance system)
    else none
  | .post sessionId =>
    match (b.line sessionId).outbox with
    | p :: outbox =>
      some ((b.modifyLine sessionId fun x => { x with outbox := outbox }).post sessionId p)
    | [] => none
  | .request command => if command.isRequest then some (b.send command) else none
  | .handle env =>
    match b.channel with
    | command :: channel => some ({ b with channel := channel }.handleStep env command)
    | [] => none
  | .close clientId => some { b with closed := b.closed.insert clientId }

/-- The bus when the daemon starts: no session runs and no client is connected. -/
def boot (stores : Std.ExtTreeMap ℕ Store) : Bus :=
  { lines := stores.map fun _ store => { system := System.init store } }

/-! ### What a client gets -/

def received (start clientId sessionId : ℕ) (b : Bus) : List (SessionEvent × ℕ) :=
  b.enqueued.filterMap (Delivery.numberedFor start clientId sessionId)

def emittedFrom (start sessionId : ℕ) (b : Bus) : List (SessionEvent × ℕ) :=
  (b.line sessionId).emitted.zipIdx.drop start

/-- Nothing that a session sent waits any more. -/
def Drained (sessionId : ℕ) (b : Bus) : Prop :=
  (b.line sessionId).outbox = [] ∧ ∀ command ∈ b.channel, command.origin ≠ some sessionId

/-- From a number on, a client gets the events of a session once each and in their order: so far
the first of them, and all of them when nothing waits any more. -/
def Delivers (start clientId sessionId : ℕ) (b : Bus) : Prop :=
  b.received start clientId sessionId <+: b.emittedFrom start sessionId ∧
    (b.Drained sessionId → b.received start clientId sessionId = b.emittedFrom start sessionId)

end Bus

end Choreo
