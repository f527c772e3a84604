import Choreo.Daemon.Buses
import Choreo.Library.Queue

/-!
# Session events reach a client once and in order

For one client and one session, the daemon's view of the client is two flags: whether it knows the
client as a subscriber of the session, and whether the client subscribes to all activity. The
commands that wait in the daemon's channel turn these flags and decide, with what they find, whether
the client gets an event on the activity bus. Since a session thread reports its subscribers into the
same channel as its events, an event finds the flag of the client as it was when the event was
emitted, and the client gets it on exactly one bus.

Two things go wrong. A thread that is shut down does not report that its subscribers are gone, so the
daemon withholds the events of the next thread from them. And an event that a session enqueues itself
overtakes the earlier ones that still wait in the channel, which a client that attaches while it
subscribes to all activity sees out of order.
-/

namespace Choreo

open StepSystem CommandQueue Option

/-- The daemon's view of a client and a session. -/
structure Standing where
  tracked : Bool
  active : Bool

namespace BusCommand

/-- What a command makes of the flags of a client that it does not take off. -/
def turn (clientId sessionId : ℕ) (command : BusCommand) (f : Standing) : Standing :=
  match command with
  | .trackSessionSubscription id id' =>
    if id = clientId ∧ id' = sessionId then { f with tracked := true } else f
  | .untrackSessionSubscription id id' =>
    if id = clientId ∧ id' = sessionId then { f with tracked := false } else f
  | .registerActivitySubscriber id => if id = clientId then { f with active := true } else f
  | .unregisterActivitySubscriber id => if id = clientId then { f with active := false } else f
  | _ => f

/-- The event of a session from a number on that a command brings to a client with the given flags
on the activity bus. -/
def due (start sessionId : ℕ) (command : BusCommand) (f : Standing) :
    List (SessionEvent × ℕ) :=
  match command with
  | .broadcastActivity id number event =>
    if id = sessionId ∧ start ≤ number ∧ f.active = true ∧ f.tracked = false then [(event, number)]
    else []
  | _ => []

def numbered : BusCommand → Option (ℕ × ℕ)
  | .broadcastActivity id number _ => some (id, number)
  | .broadcastSessionStatus id number _ => number.map fun n => (id, n)
  | _ => none

/-- A change of the status is not sent to the client a second time. -/
def Covers (start sessionId : ℕ) (command : BusCommand) (f : Standing) : Prop :=
  match command with
  | .broadcastSessionStatus id number _ =>
    id = sessionId → ∀ n ∈ number, start ≤ n → f.tracked = true ∨ f.active = true
  | _ => True

end BusCommand

/-- The events that the actions before a session thread bring to a client, directly or by way of the
daemon, when the client subscribes to the session or not. -/
def Post.due (start clientId : ℕ) (subscribed : Bool) : Post → List (SessionEvent × ℕ)
  | .broadcastActivity number event =>
    if start ≤ number ∧ subscribed = false then [(event, number)] else []
  | .enqueue id number event => if id = clientId ∧ start ≤ number then [(event, number)] else []
  | _ => []

/-- The actions before a session thread fit together: the daemon's flag, as it will be, is the one of
the thread when an event is forwarded, and in the end. -/
def Coherent (clientId : ℕ) (subscribed : Bool) : Bool → List Post → Prop
  | tracked, [] => tracked = subscribed
  | tracked, .trackSessionSubscription id :: ps =>
    Coherent clientId subscribed (decide (id = clientId) || tracked) ps
  | tracked, .untrackSessionSubscription id :: ps =>
    Coherent clientId subscribed (!decide (id = clientId) && tracked) ps
  | tracked, .broadcastActivity .. :: ps | tracked, .broadcastSessionStatus .. :: ps =>
    tracked = subscribed ∧ Coherent clientId subscribed tracked ps
  | tracked, _ :: ps => Coherent clientId subscribed tracked ps

/-- Whether an action enqueues an event to a client. -/
def Post.enqueuesTo (clientId : ℕ) : Post → Bool
  | .enqueue id _ _ => id == clientId
  | _ => false

/-- The number of the event that an action carries. -/
def Post.number : Post → Option ℕ
  | .broadcastActivity number _ | .enqueue _ number _ => some number
  | .broadcastSessionStatus number _ => number
  | _ => none

/-! ### The actions of a step of a session -/

section Posts

variable {clientId start : ℕ} {subscribed : Bool}

theorem Coherent.enqueue {tracked : Bool} (recipients : List ℕ) (n : ℕ) (event : SessionEvent)
    {ps : List Post} (h : Coherent clientId subscribed tracked ps) :
    Coherent clientId subscribed tracked
      (recipients.map (fun id => Post.enqueue id n event) ++ ps) := by
  induction recipients with
  | nil => exact h
  | cons id recipients ih => exact ih

variable {outputs : List Output}

theorem coherent_posts (h : ∀ o ∈ outputs, o.Fits clientId subscribed)
    (n : ℕ) : Coherent clientId subscribed subscribed (posts n outputs) := by
  induction outputs generalizing n with
  | nil => rfl
  | cons o outputs ih =>
    rw [List.forall_mem_cons] at h
    have htail := ih h.2 (n + (events [o]).length)
    cases o with
    | broadcast event recipients => exact ⟨rfl, Coherent.enqueue recipients n event htail⟩
    | trackSessionSubscription id | untrackSessionSubscription id =>
      have hid : ¬ id = clientId := h.1
      simpa [posts, Output.posts, Coherent, hid] using htail
    | broadcastSessionStatus status => exact ⟨rfl, htail⟩
    | _ => exact htail

theorem due_enqueue (recipients : List ℕ) {n : ℕ} (hn : start ≤ n) (event : SessionEvent) :
    (recipients.map fun id => Post.enqueue id n event).flatMap (Post.due start clientId subscribed) =
      List.replicate (recipients.count clientId) (event, n) := by
  induction recipients with
  | nil => rfl
  | cons id recipients ih =>
    rw [List.map_cons, List.flatMap_cons, ih, List.count_cons]
    by_cases hid : id = clientId
    · simp [Post.due, hid, hn, List.replicate_succ]
    · simp [Post.due, hid]

/-- Every event of a step is due exactly once. -/
theorem due_posts (h : ∀ o ∈ outputs, o.Fits clientId subscribed)
    {n : ℕ} (hn : start ≤ n) :
    (posts n outputs).flatMap (Post.due start clientId subscribed) = (events outputs).zipIdx n := by
  induction outputs generalizing n with
  | nil => rfl
  | cons o outputs ih =>
    rw [List.forall_mem_cons] at h
    have htail := ih h.2 (hn.trans (Nat.le_add_right n (events [o]).length))
    rw [posts, List.flatMap_append, htail]
    cases o with
    | broadcast event recipients =>
      have hcount : recipients.count clientId = subscribed.toNat := h.1
      rw [Output.posts, List.flatMap_cons, due_enqueue recipients hn, hcount]
      cases subscribed <;> simp [Post.due, hn, events, List.replicate_succ]
    | _ => rfl

theorem Coherent.append {tracked : Bool} {ps qs : List Post}
    (h : Coherent clientId subscribed tracked ps) (h' : Coherent clientId subscribed subscribed qs) :
    Coherent clientId subscribed tracked (ps ++ qs) := by
  induction ps generalizing tracked with
  | nil => exact (show tracked = subscribed from h) ▸ h'
  | cons p ps ih =>
    cases p with
    | broadcastActivity number event | broadcastSessionStatus number status => exact ⟨h.1, ih h.2⟩
    | trackSessionSubscription id =>
      have htail : Coherent clientId subscribed (decide (id = clientId) || tracked) ps := h
      exact ih htail
    | untrackSessionSubscription id =>
      have htail : Coherent clientId subscribed (!decide (id = clientId) && tracked) ps := h
      exact ih htail
    | _ =>
      have htail : Coherent clientId subscribed tracked ps := h
      exact ih htail

theorem number_of_mem_posts {n : ℕ} {p : Post} (hp : p ∈ posts n outputs)
    {k : ℕ} (hk : k ∈ p.number) : k < n + (events outputs).length := by
  induction outputs generalizing n with
  | nil => exact absurd hp List.not_mem_nil
  | cons o outputs ih =>
    have hlength : (events (o :: outputs)).length =
        (events [o]).length + (events outputs).length := by
      unfold events
      rw [← List.length_append, ← List.filterMap_append]
      rfl
    rw [posts, List.mem_append] at hp
    rcases hp with hp | hp
    · cases o with
      | broadcast event recipients =>
        have heq : k = n := by
          rcases List.mem_cons.1 hp with rfl | hp
          · exact (mem_some_iff.1 hk).symm
          · obtain ⟨id, -, rfl⟩ := List.mem_map.1 hp
            exact (mem_some_iff.1 hk).symm
        rw [heq, hlength]
        exact Nat.lt_add_of_pos_right (Nat.add_pos_left Nat.zero_lt_one _)
      | broadcastSessionStatus status =>
        rw [List.mem_singleton.1 hp] at hk
        have hpred : n = k + 1 := (Nat.ppred_eq_some.1 hk).symm
        omega
      | direct id event => rw [List.mem_singleton.1 hp] at hk; cases hk
      | trackSessionSubscription id => rw [List.mem_singleton.1 hp] at hk; cases hk
      | untrackSessionSubscription id => rw [List.mem_singleton.1 hp] at hk; cases hk
      | sessionExited => rw [List.mem_singleton.1 hp] at hk; cases hk
      | _ => exact absurd hp List.not_mem_nil
    · have hlt := ih hp
      omega

end Posts

namespace Bus

/-! ### The daemon's view of a client -/

variable (clientId sessionId : ℕ)

/-- The daemon's view of a client and a session. -/
def flags (b : Bus) : Standing where
  tracked := b.tracks clientId sessionId
  active := b.activitySubscribers.contains clientId

/-- The view that the daemon will have after all commands that wait. -/
def settled (b : Bus) : Standing :=
  after (BusCommand.turn clientId sessionId) (b.flags clientId sessionId) b.channel

/-- The events of a session from a number on that wait in the daemon's channel for a client. -/
def pending (start clientId sessionId : ℕ) (b : Bus) : List (SessionEvent × ℕ) :=
  results (BusCommand.turn clientId sessionId) (BusCommand.due start sessionId)
    (b.flags clientId sessionId) b.channel

def subscribed (b : Bus) : Bool :=
  (b.line sessionId).system.subscribed clientId

/-- The events of a session from a number on that its thread still has before it for a client. -/
def outstanding (start clientId sessionId : ℕ) (b : Bus) : List (SessionEvent × ℕ) :=
  (b.line sessionId).outbox.flatMap (Post.due start clientId (b.subscribed clientId sessionId))

/-- A client subscribes to a session, or to all activity, with what it asked for so far. -/
def Follows (b : Bus) : Prop :=
  b.subscribed clientId sessionId = true ∨ (b.settled clientId sessionId).active = true

/-- A session is not started again when its last thread ended with the client as a subscriber. -/
def Current (label : BusLabel) (b : Bus) : Prop :=
  match label with
  | .session id (.restart _) => id = sessionId → b.subscribed clientId sessionId = false
  | _ => True

/-- When a session enqueues an event to the client itself, no earlier event of the session waits for
the client in the daemon's channel. -/
def InTurn (label : BusLabel) (b : Bus) : Prop :=
  match label with
  | .post id => id = sessionId →
    (b.line sessionId).outbox.head?.any (Post.enqueuesTo clientId) = true →
      (b.pending 0 clientId sessionId).isEmpty = true
  | _ => True

end Bus

/-- A client stays connected: its receiver is there, and it is neither evicted nor leaves. -/
def BusLabel.Connected (clientId : ℕ) : BusLabel → Prop
  | .close id => id ≠ clientId
  | .request command => command.dismisses clientId = false
  | .handle env => clientId ∉ env.evicted
  | _ => True

/-- A change of a session from outside that does not concern the client. -/
structure Line.Keeps (clientId : ℕ) (x x' : Line) : Prop where
  outbox : x'.outbox = x.outbox
  emitted : x'.emitted = x.emitted
  subscribed : x'.system.subscribed clientId = x.system.subscribed clientId
  queue : .removeSubscriber clientId ∉ x.system.queue → .removeSubscriber clientId ∉ x'.system.queue
  invariant : x.system.Invariant → x'.system.Invariant

namespace Line.Keeps

variable {clientId : ℕ} {x x' x'' : Line}

theorem refl (x : Line) : Keeps clientId x x := ⟨rfl, rfl, rfl, id, id⟩

theorem trans (h : Keeps clientId x x') (h' : Keeps clientId x' x'') : Keeps clientId x x'' :=
  ⟨h'.outbox.trans h.outbox, h'.emitted.trans h.emitted, h'.subscribed.trans h.subscribed,
    h'.queue ∘ h.queue, h'.invariant ∘ h.invariant⟩

/-- A session is told to forget another client. -/
theorem removeSubscriber {id : ℕ} (hid : id ≠ clientId) (x : Line) :
    Keeps clientId x (if x.system.live then
      { x with system := { x.system with queue := x.system.queue ++ [.removeSubscriber id] } }
      else x) := by
  by_cases hlive : x.system.live = true
  · rw [if_pos hlive]
    refine ⟨rfl, rfl, rfl, fun hqueue hmem => ?_, fun hinv => ?_⟩
    · rcases List.mem_append.1 hmem with hmem | hmem
      · exact hqueue hmem
      · rw [List.mem_singleton, SessionCommand.removeSubscriber.injEq] at hmem
        exact hid hmem.symm
    · exact hinv.send hlive rfl
  · rw [if_neg hlive]
    exact refl x

end Line.Keeps

namespace Bus

variable {clientId sessionId start : ℕ} {b b' : Bus}

theorem line_modifyLine (sessionId id : ℕ) (f : Line → Line) (b : Bus) :
    (b.modifyLine sessionId f).line id = if id = sessionId then f (b.line id) else b.line id := by
  unfold line modifyLine
  dsimp only
  rw [Std.ExtTreeMap.get_insert]
  by_cases hid : id = sessionId
  · rw [if_pos hid, if_pos hid, hid]
    rfl
  · rw [if_neg hid, if_neg hid]

theorem filterMap_eq_replicate {α : Type*} (x : α) (ids : List ℕ) :
    (ids.filterMap fun id => if id = clientId then some x else none) =
      List.replicate (ids.count clientId) x := by
  induction ids with
  | nil => rfl
  | cons id ids ih =>
    by_cases hid : id = clientId
    · simp [hid, ih, List.replicate_succ]
    · simp [hid, ih]

theorem received_fanOut (start sessionId id : ℕ) (number : Option ℕ) (event : SessionEvent) (skip : ℕ → Bool)
    (subscribers : Std.ExtTreeSet ℕ) (hclosed : b.closed.contains clientId = false) :
    (b.fanOut id number event skip subscribers).filterMap
        (Delivery.numberedFor start clientId sessionId) =
      if id = sessionId ∧ subscribers.contains clientId = true ∧ skip clientId = false then
        (number.bind fun n => if start ≤ n then some (event, n) else none).toList
      else [] := by
  unfold fanOut
  rw [List.filterMap_map]
  set ids := subscribers.toList.filter fun id => !skip id && !b.closed.contains id with hids
  have hfun : Delivery.numberedFor start clientId sessionId ∘
      (fun id' => (⟨id', id, number, event⟩ : Delivery)) = fun id' =>
        if id' = clientId then
          if id = sessionId then
            number.bind fun n => if start ≤ n then some (event, n) else none
          else none
        else none := by
    funext id'
    by_cases hid' : id' = clientId <;> by_cases hid : id = sessionId <;>
      simp [Delivery.numberedFor, hid', hid]
  rw [hfun]
  by_cases hid : id = sessionId
  · simp only [hid, if_true, true_and]
    cases (number.bind fun n => if start ≤ n then some (event, n) else none) with
    | none => simp
    | some x =>
      rw [filterMap_eq_replicate]
      by_cases hskip : skip clientId = true
      · have hcount : ids.count clientId = 0 := by
          rw [List.count_eq_zero, hids, List.mem_filter]
          simp [hskip]
        simp [hcount, hskip]
      · have hcount : ids.count clientId = (subscribers.contains clientId).toNat := by
          rw [hids, List.count_filter (by simp [hskip, hclosed]), Std.ExtTreeSet.count_toList]
        rw [hcount]
        cases subscribers.contains clientId <;> simp [hskip]
  · simp [hid]

/-- A change of the daemon that does not concern a client. -/
structure Spares (clientId : ℕ) (b b' : Bus) : Prop where
  tracks : ∀ sessionId, b'.tracks clientId sessionId = b.tracks clientId sessionId
  active : b'.activitySubscribers.contains clientId = b.activitySubscribers.contains clientId
  closed : b'.closed = b.closed
  channel : b'.channel = b.channel
  enqueued : b'.enqueued = b.enqueued
  line : ∀ sessionId, (b.line sessionId).Keeps clientId (b'.line sessionId)

namespace Spares

variable {b'' : Bus}

theorem refl (b : Bus) : Spares clientId b b := ⟨fun _ => rfl, rfl, rfl, rfl, rfl, fun _ => .refl _⟩

theorem trans (h : Spares clientId b b') (h' : Spares clientId b' b'') : Spares clientId b b'' :=
  ⟨fun id => (h'.tracks id).trans (h.tracks id), h'.active.trans h.active,
    h'.closed.trans h.closed, h'.channel.trans h.channel, h'.enqueued.trans h.enqueued,
    fun id => (h.line id).trans (h'.line id)⟩

theorem foldl {α : Type*} {body : Bus → α → Bus} {as : List α}
    (h : ∀ a ∈ as, ∀ b, Spares clientId b (body b a)) (b : Bus) :
    Spares clientId b (as.foldl body b) := by
  induction as generalizing b with
  | nil => exact refl b
  | cons a as ih =>
    rw [List.forall_mem_cons] at h
    exact (h.1 b).trans (ih h.2 _)

theorem removeSubscriber {id : ℕ} (hid : id ≠ clientId) (b : Bus) (sessionId : ℕ) :
    Spares clientId b (b.removeSubscriber id sessionId) := by
  refine ⟨fun _ => rfl, rfl, rfl, rfl, rfl, fun sessionId' => ?_⟩
  unfold Bus.removeSubscriber
  rw [line_modifyLine]
  by_cases hsession : sessionId' = sessionId
  · rw [if_pos hsession]
    exact .removeSubscriber hid _
  · rw [if_neg hsession]
    exact .refl _

theorem removeClientFromSessions {id : ℕ} (hid : id ≠ clientId) (b : Bus) :
    Spares clientId b (b.removeClientFromSessions id) := by
  unfold Bus.removeClientFromSessions
  split
  · refine Spares.trans ?_ (foldl (fun sessionId _ b => removeSubscriber hid b sessionId) _)
    refine ⟨fun sessionId => ?_, rfl, rfl, rfl, rfl, fun _ => .refl _⟩
    unfold Bus.tracks
    dsimp only
    rw [Std.ExtTreeMap.get_erase, if_neg hid.symm]
  · exact refl b

theorem handleClientDisconnected {id : ℕ} (hid : id ≠ clientId) (b : Bus) :
    Spares clientId b (b.handleClientDisconnected id) := by
  have hunregister : Spares clientId b
      { b with
        summarySubscribers := b.summarySubscribers.erase id
        activitySubscribers := b.activitySubscribers.erase id } := by
    refine ⟨fun _ => rfl, ?_, rfl, rfl, rfl, fun _ => .refl _⟩
    dsimp only
    rw [Std.ExtTreeSet.contains_erase_eq, decide_eq_false hid.symm, Bool.not_false, Bool.true_and]
  refine (hunregister.trans (removeClientFromSessions hid _)).trans ?_
  exact ⟨fun _ => rfl, rfl, rfl, rfl, rfl, fun _ => .refl _⟩

theorem handleEvictClient {id : ℕ} (hid : id ≠ clientId) (b : Bus) :
    Spares clientId b (b.handleEvictClient id) := by
  unfold Bus.handleEvictClient
  by_cases hwriter : b.clientWriters.contains id = true
  · rw [if_pos hwriter]
    exact handleClientDisconnected hid b
  · rw [if_neg hwriter]
    exact refl b

theorem flags (h : Spares clientId b b') : b'.flags clientId sessionId = b.flags clientId sessionId := by
  unfold Bus.flags
  rw [h.tracks, h.active]

end Spares

/-! ### What the daemon's commands do -/

theorem tracks_handleTrackSessionSubscription (id id' : ℕ) (b : Bus) :
    (b.handleTrackSessionSubscription id id').tracks clientId sessionId =
      (decide (id = clientId ∧ id' = sessionId) || b.tracks clientId sessionId) := by
  unfold tracks handleTrackSessionSubscription
  dsimp only
  rw [Std.ExtTreeMap.get_insert]
  by_cases hid : clientId = id
  · subst hid
    rw [if_pos rfl, any_some, Std.ExtTreeSet.contains_insert_eq]
    cases b.clientSubscribedSessions[clientId]? <;> simp [eq_comm]
  · rw [if_neg hid]
    simp [Ne.symm hid]

theorem tracks_handleUntrackSessionSubscription (id id' : ℕ) (b : Bus) :
    (b.handleUntrackSessionSubscription id id').tracks clientId sessionId =
      (!decide (id = clientId ∧ id' = sessionId) && b.tracks clientId sessionId) := by
  unfold handleUntrackSessionSubscription
  cases hsessions : b.clientSubscribedSessions[id]? with
  | none =>
    by_cases hid : id = clientId
    · subst hid
      simp [tracks, hsessions]
    · simp [hid]
  | some sessions =>
    have hget : ((if (sessions.erase id').isEmpty then b.clientSubscribedSessions.erase id
        else b.clientSubscribedSessions.insert id (sessions.erase id'))[clientId]?.any
          fun sessions => sessions.contains sessionId) =
        if clientId = id then (sessions.erase id').contains sessionId
        else b.tracks clientId sessionId := by
      by_cases hempty : (sessions.erase id').isEmpty = true
      · rw [if_pos hempty, Std.ExtTreeMap.get_erase]
        rw [Std.ExtTreeSet.isEmpty_iff] at hempty
        by_cases hid : clientId = id
        · simp [hid, hempty]
        · simp [hid, tracks]
      · rw [if_neg hempty, Std.ExtTreeMap.get_insert]
        by_cases hid : clientId = id
        · simp [hid]
        · simp [hid, tracks]
    refine hget.trans ?_
    by_cases hid : clientId = id
    · subst hid
      rw [if_pos rfl, Std.ExtTreeSet.contains_erase_eq]
      simp [tracks, hsessions, eq_comm]
    · simp [hid, Ne.symm hid]

/-- What a command does that the daemon handles, seen from a client that it does not take off. -/
structure Effect (clientId sessionId : ℕ) (command : BusCommand) (b b' : Bus) : Prop where
  flags : b'.flags clientId sessionId =
    command.turn clientId sessionId (b.flags clientId sessionId)
  closed : b'.closed = b.closed
  channel : b'.channel = b.channel
  line : ∀ id, (b.line id).Keeps clientId (b'.line id)
  received : ∀ start, command.Covers start sessionId (b.flags clientId sessionId) →
    b'.received start clientId sessionId =
      b.received start clientId sessionId ++ command.due start sessionId (b.flags clientId sessionId)
  enqueued : ∃ new, b'.enqueued = b.enqueued ++ new ∧
    ∀ d ∈ new, ∀ n ∈ d.number, command.numbered = some (d.sessionId, n)

namespace Effect

variable {command : BusCommand}

theorem of_quiet (hflags : b'.flags clientId sessionId =
      command.turn clientId sessionId (b.flags clientId sessionId))
    (hdue : ∀ start f, command.due start sessionId f = []) (hlines : b'.lines = b.lines)
    (hclosed : b'.closed = b.closed) (hchannel : b'.channel = b.channel)
    (henqueued : b'.enqueued = b.enqueued) : Effect clientId sessionId command b b' where
  flags := hflags
  closed := hclosed
  channel := hchannel
  line id := by
    unfold Bus.line
    rw [hlines]
    exact .refl _
  received start _ := by
    unfold Bus.received
    rw [hdue, List.append_nil, henqueued]
  enqueued := ⟨[], by rw [henqueued, List.append_nil], by simp⟩

theorem of_spares (h : Spares clientId b b') (hturn : ∀ f, command.turn clientId sessionId f = f)
    (hdue : ∀ start f, command.due start sessionId f = []) :
    Effect clientId sessionId command b b' where
  flags := by rw [hturn, h.flags]
  closed := h.closed
  channel := h.channel
  line := h.line
  received start _ := by
    unfold Bus.received
    rw [hdue, List.append_nil, h.enqueued]
  enqueued := ⟨[], by rw [h.enqueued, List.append_nil], by simp⟩

/-- Clients that turn out to lag are disconnected after a command. -/
theorem spares {b'' : Bus} (h : Effect clientId sessionId command b b')
    (h' : Spares clientId b' b'') : Effect clientId sessionId command b b'' where
  flags := h'.flags.trans h.flags
  closed := h'.closed.trans h.closed
  channel := h'.channel.trans h.channel
  line id := (h.line id).trans (h'.line id)
  received start hcovers := by
    have hsame : b''.received start clientId sessionId = b'.received start clientId sessionId := by
      unfold Bus.received
      rw [h'.enqueued]
    exact hsame.trans (h.received start hcovers)
  enqueued := by
    obtain ⟨new, hnew, hnumbers⟩ := h.enqueued
    exact ⟨new, h'.enqueued.trans hnew, hnumbers⟩

end Effect

theorem contains_retained (skip : ℕ → Bool) (subscribers : Std.ExtTreeSet ℕ)
    (hclosed : b.closed.contains clientId = false) :
    (b.retained skip subscribers).contains clientId = subscribers.contains clientId := by
  unfold retained
  rw [Std.ExtTreeSet.contains_filter_eq, hclosed, Bool.not_false, Bool.or_true, Bool.and_true]

theorem number_of_mem_fanOut {id : ℕ} {number : Option ℕ} {event : SessionEvent} {skip : ℕ → Bool}
    {subscribers : Std.ExtTreeSet ℕ} {d : Delivery}
    (h : d ∈ b.fanOut id number event skip subscribers) : d.sessionId = id ∧ d.number = number := by
  obtain ⟨clientId, -, rfl⟩ := List.mem_map.1 h
  exact ⟨rfl, rfl⟩

theorem received_append {new : List Delivery} (h : b'.enqueued = b.enqueued ++ new) :
    b'.received start clientId sessionId = b.received start clientId sessionId ++
      new.filterMap (Delivery.numberedFor start clientId sessionId) := by
  unfold received
  rw [h, List.filterMap_append]

/-- The activity bus. -/
theorem effect_handleBroadcastActivity (id number : ℕ) (event : SessionEvent)
    (hclosed : b.closed.contains clientId = false) :
    Effect clientId sessionId (.broadcastActivity id number event) b
      (b.handleBroadcastActivity id number event) where
  flags := congrArg (Standing.mk _) (contains_retained _ _ hclosed)
  closed := rfl
  channel := rfl
  line _ := .refl _
  received start _ := by
    have hnew := received_fanOut start sessionId id (some number) event
      (fun clientId => b.tracks clientId id) b.activitySubscribers hclosed
    rw [received_append rfl, hnew]
    congr 1
    by_cases hid : id = sessionId
    · subst hid
      by_cases hstart : start ≤ number <;>
        simp [BusCommand.due, Bus.flags, hstart]
    · simp [BusCommand.due, hid]
  enqueued := by
    refine ⟨_, rfl, fun d hd n hn => ?_⟩
    obtain ⟨hid, hnumber⟩ := number_of_mem_fanOut hd
    rw [hnumber, mem_some_iff] at hn
    rw [hid, ← hn]
    rfl

/-- The bus of the list of sessions. -/
theorem effect_handleBroadcastSessionStatus (env : HandleEnv) (id : ℕ) (number : Option ℕ)
    (status : SessionStatus) (hclosed : b.closed.contains clientId = false) :
    Effect clientId sessionId (.broadcastSessionStatus id number status) b
      (b.handleBroadcastSessionStatus env id number status) := by
  unfold handleBroadcastSessionStatus
  cases env.lastModified with
  | none => exact .of_quiet rfl (fun _ _ => rfl) rfl rfl rfl rfl
  | some lastModified =>
    refine ⟨rfl, rfl, rfl, fun _ => .refl _, fun start hcovers => ?_, _, rfl, fun d hd n hn => ?_⟩
    · have hnew := received_fanOut start sessionId id number
        (.sessionStatusChanged status lastModified)
        (fun clientId => b.tracks clientId id || b.activitySubscribers.contains clientId)
        b.summarySubscribers hclosed
      rw [received_append rfl, hnew]
      change _ = _ ++ []
      congr 1
      by_cases hid : id = sessionId
      · subst hid
        have hskip : ∀ n ∈ number, start ≤ n →
            (b.tracks clientId id || b.activitySubscribers.contains clientId) = true := by
          intro n hn hstart
          rw [Bool.or_eq_true]
          exact hcovers rfl n hn hstart
        cases number with
        | none => simp
        | some n =>
          by_cases hstart : start ≤ n
          · simp only [hskip n rfl hstart]
            simp
          · simp [hstart]
      · simp [hid]
    · obtain ⟨hid, hnumber⟩ := number_of_mem_fanOut hd
      rw [hnumber] at hn
      rw [hid, BusCommand.numbered, hn]
      rfl

/-- The daemon's own notices carry no number. -/
theorem effect_handleSessionExited (env : HandleEnv) (id : ℕ)
    (hclosed : b.closed.contains clientId = false) :
    Effect clientId sessionId (.sessionExited id) b (b.handleSessionExited env id) := by
  unfold handleSessionExited
  cases env.lastModified with
  | none => exact .of_quiet rfl (fun _ _ => rfl) rfl rfl rfl rfl
  | some lastModified =>
    dsimp only
    set notified := b.fanOutActivity id none (.sessionStatusChanged .sleeping lastModified)
      fun _ => false with hnotified
    refine ⟨congrArg (Standing.mk _) (contains_retained _ _ hclosed), rfl, rfl, fun _ => .refl _,
      fun start _ => ?_, _ ++ _, List.append_assoc .., fun d hd n hn => ?_⟩
    · rw [received_append (b := notified) rfl, received_append (b := b) rfl,
        received_fanOut start sessionId id none _ _ _ hclosed,
        received_fanOut start sessionId id none _ _ _ (hnotified ▸ hclosed)]
      simp [BusCommand.due]
    · rcases List.mem_append.1 hd with hmem | hmem
      · rw [(number_of_mem_fanOut hmem).2] at hn
        cases hn
      · rw [(number_of_mem_fanOut hmem).2] at hn
        cases hn

variable {command : BusCommand}

theorem effect_handleCommand (env : HandleEnv)
    (hclosed : b.closed.contains clientId = false) (hstays : command.dismisses clientId = false) :
    Effect clientId sessionId command b (b.handleCommand env command) := by
  have hother : ∀ id, (id == clientId) = false → id ≠ clientId := fun id h => by simpa using h
  cases command with
  | broadcastActivity id number event => exact effect_handleBroadcastActivity id number event hclosed
  | broadcastSessionStatus id number status =>
    exact effect_handleBroadcastSessionStatus env id number status hclosed
  | trackSessionSubscription id id' =>
    refine .of_quiet ?_ (fun _ _ => rfl) rfl rfl rfl rfl
    unfold flags
    rw [show b.handleCommand env (.trackSessionSubscription id id') =
      b.handleTrackSessionSubscription id id' from rfl, tracks_handleTrackSessionSubscription]
    by_cases hid : id = clientId ∧ id' = sessionId
    · simp [BusCommand.turn, hid, handleTrackSessionSubscription]
    · simp [BusCommand.turn, hid, handleTrackSessionSubscription]
  | untrackSessionSubscription id id' =>
    have hsame : ∀ b : Bus, (b.handleUntrackSessionSubscription id id').activitySubscribers =
        b.activitySubscribers ∧ (b.handleUntrackSessionSubscription id id').lines = b.lines ∧
        (b.handleUntrackSessionSubscription id id').closed = b.closed ∧
        (b.handleUntrackSessionSubscription id id').channel = b.channel ∧
        (b.handleUntrackSessionSubscription id id').enqueued = b.enqueued := by
      intro b
      unfold handleUntrackSessionSubscription
      split <;> exact ⟨rfl, rfl, rfl, rfl, rfl⟩
    obtain ⟨hactive, hlines, hclosed', hchannel, henqueued⟩ := hsame b
    refine .of_quiet ?_ (fun _ _ => rfl) hlines hclosed' hchannel henqueued
    unfold flags
    rw [show b.handleCommand env (.untrackSessionSubscription id id') =
      b.handleUntrackSessionSubscription id id' from rfl, tracks_handleUntrackSessionSubscription,
      hactive]
    by_cases hid : id = clientId ∧ id' = sessionId
    · simp [BusCommand.turn, hid]
    · simp [BusCommand.turn, hid]
  | sessionExited id => exact effect_handleSessionExited env id hclosed
  | registerClientWriter id => exact .of_quiet rfl (fun _ _ => rfl) rfl rfl rfl rfl
  | registerSummarySubscriber id => exact .of_quiet rfl (fun _ _ => rfl) rfl rfl rfl rfl
  | unregisterSummarySubscriber id => exact .of_quiet rfl (fun _ _ => rfl) rfl rfl rfl rfl
  | registerActivitySubscriber id =>
    refine .of_quiet ?_ (fun _ _ => rfl) rfl rfl rfl rfl
    refine (congrArg (Standing.mk (b.tracks clientId sessionId))
      (Std.ExtTreeSet.contains_insert_eq ..)).trans ?_
    by_cases hid : id = clientId
    · simp [BusCommand.turn, hid, flags]
    · simp [BusCommand.turn, hid, Ne.symm hid, flags]
  | unregisterActivitySubscriber id =>
    refine .of_quiet ?_ (fun _ _ => rfl) rfl rfl rfl rfl
    refine (congrArg (Standing.mk (b.tracks clientId sessionId))
      (Std.ExtTreeSet.contains_erase_eq ..)).trans ?_
    by_cases hid : id = clientId
    · simp [BusCommand.turn, hid, flags]
    · simp [BusCommand.turn, hid, Ne.symm hid, flags]
  | evictClient id =>
    exact .of_spares (.handleEvictClient (hother id hstays) b) (fun _ => rfl) fun _ _ => rfl
  | clientDisconnected id =>
    exact .of_spares (.handleClientDisconnected (hother id hstays) b) (fun _ => rfl) fun _ _ => rfl

theorem effect_handleStep {env : HandleEnv}
    (hclosed : b.closed.contains clientId = false) (hstays : command.dismisses clientId = false)
    (hevicted : clientId ∉ env.evicted) :
    Effect clientId sessionId command b (b.handleStep env command) := by
  refine (effect_handleCommand env hclosed hstays).spares (.foldl (fun id hid b => ?_) _)
  refine .handleEvictClient (fun heq => ?_) b
  rw [heq] at hid
  exact hevicted hid

/-! ### The invariants of a run -/

variable {setup : AgentSetup} {label : BusLabel}

/-- Nobody takes a client off that stays connected. -/
structure Sound (clientId sessionId : ℕ) (b : Bus) : Prop where
  system : (b.line sessionId).system.Invariant
  queue : .removeSubscriber clientId ∉ (b.line sessionId).system.queue
  closed : b.closed.contains clientId = false
  channel : ∀ command ∈ b.channel, command.dismisses clientId = false

/-- What holds of a client that stays connected, and of a session that leaves no subscription of it
behind. -/
structure Kept (clientId sessionId : ℕ) (b : Bus) : Prop extends Sound clientId sessionId b where
  coherent : Coherent clientId (b.subscribed clientId sessionId)
    (b.settled clientId sessionId).tracked (b.line sessionId).outbox

/-- The numbers of the events on their way are those of events that the session emitted. -/
structure Numbered (sessionId : ℕ) (b : Bus) : Prop where
  outbox : ∀ p ∈ (b.line sessionId).outbox, ∀ n ∈ p.number, n < (b.line sessionId).emitted.length
  channel : ∀ command ∈ b.channel, ∀ n, command.numbered = some (sessionId, n) →
    n < (b.line sessionId).emitted.length
  enqueued : ∀ d ∈ b.enqueued, d.sessionId = sessionId → ∀ n ∈ d.number,
    n < (b.line sessionId).emitted.length

/-- Since a number, everything that a session emitted was enqueued to a client, waits for it in the
daemon's channel, or is still before the session thread, in this order. -/
structure Window (start clientId sessionId : ℕ) (b : Bus) : Prop where
  start_le : start ≤ (b.line sessionId).emitted.length
  account : b.received start clientId sessionId ++ (b.pending start clientId sessionId ++
    b.outstanding start clientId sessionId) = b.emittedFrom start sessionId
  covered : Always (BusCommand.turn clientId sessionId) (BusCommand.Covers start sessionId)
    (b.flags clientId sessionId) b.channel

/-- At any time, nothing that the session emits from then on was enqueued or waits yet. -/
theorem Numbered.window (h : b.Numbered sessionId) (clientId : ℕ) :
    b.Window (b.line sessionId).emitted.length clientId sessionId := by
  refine ⟨le_rfl, ?_, always_of_forall (fun command hc f => ?_) _⟩
  · have hreceived : b.received (b.line sessionId).emitted.length clientId sessionId = [] := by
      refine List.filterMap_eq_nil_iff.2 fun d hd => ?_
      unfold Delivery.numberedFor
      by_cases hmatch : d.clientId = clientId ∧ d.sessionId = sessionId
      · rw [if_pos hmatch, bind_eq_none_iff]
        intro n hn
        exact if_neg (Nat.not_le.2 (h.enqueued d hd hmatch.2 n hn))
      · rw [if_neg hmatch]
    have hpending : b.pending (b.line sessionId).emitted.length clientId sessionId = [] := by
      refine results_eq_nil (fun command hc f => ?_) _
      cases command with
      | broadcastActivity id number event =>
        refine if_neg ?_
        rintro ⟨rfl, hle, -⟩
        exact absurd hle (Nat.not_le.2 (h.channel _ hc number rfl))
      | _ => rfl
    have houtstanding :
        b.outstanding (b.line sessionId).emitted.length clientId sessionId = [] := by
      refine List.flatMap_eq_nil_iff.2 fun p hp => ?_
      have hlt := h.outbox p hp
      cases p with
      | broadcastActivity number event =>
        exact if_neg fun hc => absurd hc.1 (Nat.not_le.2 (hlt number rfl))
      | enqueue id number event =>
        exact if_neg fun hc => absurd hc.2 (Nat.not_le.2 (hlt number rfl))
      | _ => rfl
    rw [hreceived, hpending, houtstanding, emittedFrom, List.drop_eq_nil_of_le (by simp)]
    rfl
  · cases command with
    | broadcastSessionStatus id number status =>
      rintro rfl n hn hle
      exact absurd hle (Nat.not_le.2 (h.channel _ hc n (by simp [BusCommand.numbered, mem_def.1 hn])))
    | _ => trivial

/-- What a client got is a part of what the session emitted, and all of it when nothing waits. -/
theorem Window.delivers (h : b.Window start clientId sessionId) :
    b.Delivers start clientId sessionId := by
  refine ⟨⟨_, h.account⟩, fun hdrained => ?_⟩
  have hpending : b.pending start clientId sessionId = [] := by
    refine results_eq_nil (fun command hc f => ?_) _
    cases command with
    | broadcastActivity id number event =>
      refine if_neg ?_
      rintro ⟨rfl, -⟩
      exact hdrained.2 _ hc rfl
    | _ => rfl
  have houtstanding : b.outstanding start clientId sessionId = [] := by
    unfold outstanding
    rw [hdrained.1]
    rfl
  rw [← h.account, hpending, houtstanding, List.append_nil, List.append_nil]

/-! ### The steps -/

/-- Another part of the bus changes: the session, the daemon's view of the client, the channel and
what was enqueued to the client stay. -/
structure Same (clientId sessionId : ℕ) (b b' : Bus) : Prop where
  line : b'.line sessionId = b.line sessionId
  flags : b'.flags clientId sessionId = b.flags clientId sessionId
  channel : b'.channel = b.channel
  closed : b'.closed.contains clientId = b.closed.contains clientId
  received : ∀ start, b'.received start clientId sessionId = b.received start clientId sessionId
  enqueued : ∃ new, b'.enqueued = b.enqueued ++ new ∧
    ∀ d ∈ new, d.sessionId = sessionId → ∀ n ∈ d.number, n < (b.line sessionId).emitted.length

namespace Same

theorem kept (h : Same clientId sessionId b b') (hkept : b.Kept clientId sessionId) :
    b'.Kept clientId sessionId where
  system := h.line.symm ▸ hkept.system
  queue := h.line.symm ▸ hkept.queue
  closed := h.closed.trans hkept.closed
  channel := h.channel.symm ▸ hkept.channel
  coherent := by
    unfold subscribed settled
    rw [h.line, h.flags, h.channel]
    exact hkept.coherent

theorem numbered (h : Same clientId sessionId b b') (hnumbered : b.Numbered sessionId) :
    b'.Numbered sessionId := by
  obtain ⟨new, henqueued, hnew⟩ := h.enqueued
  refine ⟨?_, ?_, ?_⟩
  · rw [h.line]
    exact hnumbered.outbox
  · rw [h.line, h.channel]
    exact hnumbered.channel
  · rw [h.line, henqueued]
    intro d hd
    rcases List.mem_append.1 hd with hmem | hmem
    · exact hnumbered.enqueued d hmem
    · exact hnew d hmem

theorem window (h : Same clientId sessionId b b') (hwindow : b.Window start clientId sessionId) :
    b'.Window start clientId sessionId where
  start_le := h.line.symm ▸ hwindow.start_le
  account := by
    unfold pending outstanding emittedFrom subscribed
    rw [h.line, h.flags, h.channel, h.received]
    exact hwindow.account
  covered := by
    rw [h.flags, h.channel]
    exact hwindow.covered

end Same

/-! #### A command joins the channel -/

theorem Sound.send (h : b.Sound clientId sessionId)
    (hstays : command.dismisses clientId = false)
    (hcoherent : Coherent clientId (b.subscribed clientId sessionId)
      (command.turn clientId sessionId (b.settled clientId sessionId)).tracked
      (b.line sessionId).outbox) : (b.send command).Kept clientId sessionId where
  system := h.system
  queue := h.queue
  closed := h.closed
  channel := by
    intro c hc
    rcases List.mem_append.1 hc with hmem | hmem
    · exact h.channel c hmem
    · rw [List.mem_singleton.1 hmem]
      exact hstays
  coherent := by
    unfold settled Bus.send
    rw [after_concat]
    exact hcoherent

theorem Numbered.send (h : b.Numbered sessionId)
    (hnumber : ∀ n, command.numbered = some (sessionId, n) →
      n < (b.line sessionId).emitted.length) : (b.send command).Numbered sessionId where
  outbox := h.outbox
  channel := by
    intro c hc
    rcases List.mem_append.1 hc with hmem | hmem
    · exact h.channel c hmem
    · rw [List.mem_singleton.1 hmem]
      exact hnumber
  enqueued := h.enqueued

theorem pending_send (start : ℕ) (command : BusCommand) (b : Bus) :
    (b.send command).pending start clientId sessionId = b.pending start clientId sessionId ++
      command.due start sessionId (b.settled clientId sessionId) :=
  results_concat ..

theorem Window.send (h : b.Window start clientId sessionId)
    (hdue : command.due start sessionId (b.settled clientId sessionId) = [])
    (hcovers : command.Covers start sessionId (b.settled clientId sessionId)) :
    (b.send command).Window start clientId sessionId where
  start_le := h.start_le
  account := by
    rw [pending_send, hdue, List.append_nil]
    exact h.account
  covered := always_concat h.covered hcovers

/-! #### The daemon handles a command -/

section Handle

variable {env : HandleEnv} {command : BusCommand} {channel : List BusCommand}

theorem handle_effect (h : b.Kept clientId sessionId) (hchannel : b.channel = command :: channel)
    (hevicted : clientId ∉ env.evicted) :
    Effect clientId sessionId command { b with channel := channel }
      ({ b with channel := channel }.handleStep env command) := by
  refine effect_handleStep h.closed (h.channel command ?_) hevicted
  rw [hchannel]
  exact List.mem_cons_self

theorem Kept.handle (h : b.Kept clientId sessionId) (hchannel : b.channel = command :: channel)
    (hevicted : clientId ∉ env.evicted) :
    ({ b with channel := channel }.handleStep env command).Kept clientId sessionId := by
  have heffect := handle_effect h hchannel hevicted
  have hline : (b.line sessionId).Keeps clientId _ := heffect.line sessionId
  refine ⟨⟨hline.invariant h.system, hline.queue h.queue, ?_, ?_⟩, ?_⟩
  · rw [heffect.closed]
    exact h.closed
  · rw [heffect.channel]
    intro c hc
    exact h.channel c (hchannel ▸ List.mem_cons_of_mem _ hc)
  · have hcoherent := h.coherent
    unfold subscribed settled at hcoherent ⊢
    rw [hchannel, after_cons] at hcoherent
    rw [hline.subscribed, hline.outbox, heffect.flags, heffect.channel]
    exact hcoherent

theorem Numbered.handle (h : b.Numbered sessionId) (hkept : b.Kept clientId sessionId)
    (hchannel : b.channel = command :: channel) (hevicted : clientId ∉ env.evicted) :
    ({ b with channel := channel }.handleStep env command).Numbered sessionId := by
  have heffect := handle_effect hkept hchannel hevicted
  have hline : (b.line sessionId).Keeps clientId _ := heffect.line sessionId
  obtain ⟨new, henqueued, hnew⟩ := heffect.enqueued
  refine ⟨?_, ?_, ?_⟩
  · rw [hline.outbox, hline.emitted]
    exact h.outbox
  · rw [heffect.channel, hline.emitted]
    intro c hc
    exact h.channel c (hchannel ▸ List.mem_cons_of_mem _ hc)
  · rw [henqueued, hline.emitted]
    intro d hd hsession n hn
    rcases List.mem_append.1 hd with hmem | hmem
    · exact h.enqueued d hmem hsession n hn
    · refine h.channel command (hchannel ▸ List.mem_cons_self) n ?_
      rw [hnew d hmem n hn, hsession]

theorem Window.handle (h : b.Window start clientId sessionId) (hkept : b.Kept clientId sessionId)
    (hchannel : b.channel = command :: channel) (hevicted : clientId ∉ env.evicted) :
    ({ b with channel := channel }.handleStep env command).Window start clientId sessionId := by
  have heffect := handle_effect hkept hchannel hevicted
  have hline : (b.line sessionId).Keeps clientId _ := heffect.line sessionId
  have hcovered := h.covered
  have haccount := h.account
  unfold pending outstanding emittedFrom subscribed at haccount
  rw [hchannel] at hcovered haccount
  refine ⟨?_, ?_, ?_⟩
  · rw [hline.emitted]
    exact h.start_le
  · unfold pending outstanding emittedFrom subscribed
    rw [heffect.received start hcovered.1, hline.outbox, hline.subscribed, hline.emitted,
      heffect.flags, heffect.channel, List.append_assoc, ← List.append_assoc (BusCommand.due ..)]
    exact haccount
  · rw [heffect.flags, heffect.channel]
    exact hcovered.2

end Handle

/-! #### A session makes a step -/

section Session

variable {system : System} {slabel : SystemLabel}

theorem subscribed_advance (system : System) (b : Bus) :
    (b.modifyLine sessionId (Line.advance system)).subscribed clientId sessionId =
      system.subscribed clientId := by
  unfold subscribed
  rw [line_modifyLine, if_pos rfl]
  rfl

theorem coherent_of_shifts {x : Line} (h : System.Shifts clientId x.system system) (n : ℕ)
    (tracked : Bool) :
    Coherent clientId (system.subscribed clientId) tracked
      (posts n (x.system.outputsBetween system)) := by
  obtain ⟨outputs, heq, hfits⟩ := h
  rw [heq]
  cases hsubscribed : system.subscribed clientId with
  | true | false =>
    rw [hsubscribed] at hfits
    simpa [posts, Output.posts, Coherent, events] using coherent_posts hfits n

theorem due_of_shifts {x : Line} (h : System.Shifts clientId x.system system) {n : ℕ}
    (hn : start ≤ n) :
    (posts n (x.system.outputsBetween system)).flatMap
        (Post.due start clientId (system.subscribed clientId)) =
      (events (x.system.outputsBetween system)).zipIdx n := by
  obtain ⟨outputs, heq, hfits⟩ := h
  rw [heq]
  cases hsubscribed : system.subscribed clientId with
  | true | false =>
    rw [hsubscribed] at hfits
    simpa [posts, Output.posts, Post.due, events] using due_posts hfits hn

theorem session_shifts (h : b.Kept clientId sessionId)
    (hadmits : (b.line sessionId).admits slabel = true)
    (hcurrent : slabel.isRestart = true → b.subscribed clientId sessionId = false)
    (hstep : (b.line sessionId).system.step setup (b.observe slabel) = some system) :
    System.Steady clientId (b.line sessionId).system system ∨
      (b.line sessionId).outbox = [] ∧ System.Shifts clientId (b.line sessionId).system system := by
  refine (System.step_shifts hstep (fun env henv => ?_) h.queue fun hrestart => ?_).imp_right
    fun ⟨hprocess, hshifts⟩ => ⟨?_, hshifts⟩
  · cases slabel with
    | process env' =>
      cases henv
      exact h.closed
    | _ => cases henv
  · cases slabel with
    | restart boot => exact hcurrent rfl
    | _ => cases hrestart
  · cases slabel with
    | process env => exact List.isEmpty_iff.1 hadmits
    | _ => cases hprocess

theorem Kept.session (h : b.Kept clientId sessionId)
    (hadmits : (b.line sessionId).admits slabel = true)
    (hcurrent : slabel.isRestart = true → b.subscribed clientId sessionId = false)
    (hstep : (b.line sessionId).system.step setup (b.observe slabel) = some system) :
    (b.modifyLine sessionId (Line.advance system)).Kept clientId sessionId := by
  have hline : (b.modifyLine sessionId (Line.advance system)).line sessionId =
      Line.advance system (b.line sessionId) := by
    rw [line_modifyLine, if_pos rfl]
  refine ⟨⟨?_, ?_, h.closed, h.channel⟩, ?_⟩
  · rw [hline]
    exact System.step_invariant h.system hstep
  · rw [hline]
    refine System.not_mem_queue_of_step h.system hstep h.queue fun heq => ?_
    cases slabel with
    | send command =>
      cases heq
      cases hadmits
    | _ => cases heq
  · have hcoherent := h.coherent
    rw [subscribed_advance, hline]
    unfold subscribed at hcoherent
    rcases session_shifts h hadmits hcurrent hstep with hsteady | ⟨hempty, hshifts⟩
    · rw [← hsteady.1] at hcoherent
      exact hcoherent.append (coherent_posts (hsteady.1 ▸ hsteady.2) _)
    · change Coherent _ _ _ ((b.line sessionId).outbox ++ _)
      rw [hempty]
      exact coherent_of_shifts hshifts _ _

theorem Numbered.session (h : b.Numbered sessionId) (system : System) :
    (b.modifyLine sessionId (Line.advance system)).Numbered sessionId := by
  have hline : (b.modifyLine sessionId (Line.advance system)).line sessionId =
      Line.advance system (b.line sessionId) := by
    rw [line_modifyLine, if_pos rfl]
  have hlength : (Line.advance system (b.line sessionId)).emitted.length =
      (b.line sessionId).emitted.length +
        (events ((b.line sessionId).system.outputsBetween system)).length :=
    List.length_append
  refine ⟨?_, ?_, ?_⟩
  · rw [hline, hlength]
    intro p hp n hn
    rcases List.mem_append.1 hp with hmem | hmem
    · exact Nat.lt_add_right _ (h.outbox p hmem n hn)
    · exact number_of_mem_posts hmem hn
  · rw [hline, hlength]
    intro c hc n hn
    exact Nat.lt_add_right _ (h.channel c hc n hn)
  · rw [hline, hlength]
    intro d hd hsession n hn
    exact Nat.lt_add_right _ (h.enqueued d hd hsession n hn)

theorem Window.session (h : b.Window start clientId sessionId) (hkept : b.Kept clientId sessionId)
    (hadmits : (b.line sessionId).admits slabel = true)
    (hcurrent : slabel.isRestart = true → b.subscribed clientId sessionId = false)
    (hstep : (b.line sessionId).system.step setup (b.observe slabel) = some system) :
    (b.modifyLine sessionId (Line.advance system)).Window start clientId sessionId := by
  have hline : (b.modifyLine sessionId (Line.advance system)).line sessionId =
      Line.advance system (b.line sessionId) := by
    rw [line_modifyLine, if_pos rfl]
  have houtstanding : (b.modifyLine sessionId (Line.advance system)).outstanding start clientId
      sessionId = b.outstanding start clientId sessionId ++
        (events ((b.line sessionId).system.outputsBetween system)).zipIdx
          (b.line sessionId).emitted.length := by
    unfold outstanding
    rw [subscribed_advance, hline]
    change List.flatMap _ ((b.line sessionId).outbox ++ _) = _
    rw [List.flatMap_append]
    rcases session_shifts hkept hadmits hcurrent hstep with hsteady | ⟨hempty, hshifts⟩
    · rw [due_posts (hsteady.1 ▸ hsteady.2) h.start_le, hsteady.1]
      rfl
    · rw [due_of_shifts hshifts h.start_le, hempty]
      rfl
  have hemitted : (b.modifyLine sessionId (Line.advance system)).emittedFrom start sessionId =
      b.emittedFrom start sessionId ++
        (events ((b.line sessionId).system.outputsBetween system)).zipIdx
          (b.line sessionId).emitted.length := by
    unfold emittedFrom
    rw [hline]
    change List.drop start (List.zipIdx ((b.line sessionId).emitted ++ _)) = _
    rw [List.zipIdx_append, Nat.zero_add, List.drop_append_of_le_length (by simpa using h.start_le)]
  refine ⟨?_, ?_, h.covered⟩
  · rw [hline]
    exact h.start_le.trans (List.length_append ▸ Nat.le_add_right _ _)
  · rw [hemitted, houtstanding, ← h.account, List.append_assoc, List.append_assoc]
    rfl

end Session

/-! #### A session thread goes on with what its last command made it do -/

section Post

variable {p : Post} {outbox : List Post}

/-- The session has done the first thing before it. -/
def popped (sessionId : ℕ) (outbox : List Post) (b : Bus) : Bus :=
  b.modifyLine sessionId fun x => { x with outbox := outbox }

theorem line_popped (b : Bus) :
    (b.popped sessionId outbox).line sessionId = { b.line sessionId with outbox := outbox } := by
  unfold popped
  rw [line_modifyLine, if_pos rfl]

theorem subscribed_popped (b : Bus) :
    (b.popped sessionId outbox).subscribed clientId sessionId = b.subscribed clientId sessionId := by
  unfold subscribed
  rw [line_popped]

theorem settled_popped (b : Bus) :
    (b.popped sessionId outbox).settled clientId sessionId = b.settled clientId sessionId := rfl

theorem Sound.popped (h : b.Sound clientId sessionId) (outbox : List Post) :
    (b.popped sessionId outbox).Sound clientId sessionId := by
  refine ⟨?_, ?_, h.closed, h.channel⟩
  · rw [line_popped]
    exact h.system
  · rw [line_popped]
    exact h.queue

/-- Something is enqueued to a client. -/
theorem Sound.deliver (h : b.Sound clientId sessionId) (id id' : ℕ) (number : Option ℕ)
    (event : SessionEvent) (hcoherent : Coherent clientId (b.subscribed clientId sessionId)
      (b.settled clientId sessionId).tracked (b.line sessionId).outbox) :
    (b.deliver id id' number event).Kept clientId sessionId := by
  unfold Bus.deliver
  by_cases hclosed : b.closed.contains id = true
  · rw [if_pos hclosed]
    exact ⟨h, hcoherent⟩
  · rw [if_neg hclosed]
    exact ⟨⟨h.system, h.queue, h.closed, h.channel⟩, hcoherent⟩

theorem Kept.post (h : b.Kept clientId sessionId) (houtbox : (b.line sessionId).outbox = p :: outbox) :
    ((b.popped sessionId outbox).post sessionId p).Kept clientId sessionId := by
  have hsound := h.toSound.popped outbox
  have hcoherent := h.coherent
  rw [houtbox] at hcoherent
  have hline : ((b.popped sessionId outbox).line sessionId).outbox = outbox := by
    rw [line_popped]
  cases p with
  | broadcastActivity number event | broadcastSessionStatus number status =>
    refine hsound.send rfl ?_
    rw [subscribed_popped, hline]
    exact hcoherent.2
  | trackSessionSubscription id | untrackSessionSubscription id =>
    refine hsound.send rfl ?_
    rw [subscribed_popped, settled_popped, hline]
    by_cases hid : id = clientId
    · simpa [Coherent, BusCommand.turn, hid] using hcoherent
    · simpa [Coherent, BusCommand.turn, hid] using hcoherent
  | sessionExited =>
    refine hsound.send rfl ?_
    rw [subscribed_popped, hline]
    exact hcoherent
  | enqueue id number event =>
    refine hsound.deliver id sessionId (some number) event ?_
    rw [subscribed_popped, hline]
    exact hcoherent
  | sendUnchecked id event =>
    refine hsound.deliver id sessionId none event ?_
    rw [subscribed_popped, hline]
    exact hcoherent

theorem Numbered.popped (h : b.Numbered sessionId)
    (houtbox : (b.line sessionId).outbox = p :: outbox) :
    (b.popped sessionId outbox).Numbered sessionId := by
  refine ⟨?_, ?_, ?_⟩
  · rw [line_popped]
    intro q hq
    exact h.outbox q (houtbox ▸ List.mem_cons_of_mem p hq)
  · rw [line_popped]
    exact h.channel
  · rw [line_popped]
    exact h.enqueued

theorem Numbered.deliver (h : b.Numbered sessionId) {id id' : ℕ} {number : Option ℕ}
    {event : SessionEvent}
    (hnumber : id' = sessionId → ∀ n ∈ number, n < (b.line sessionId).emitted.length) :
    (b.deliver id id' number event).Numbered sessionId := by
  unfold Bus.deliver
  by_cases hclosed : b.closed.contains id = true
  · rw [if_pos hclosed]
    exact h
  · rw [if_neg hclosed]
    refine ⟨h.outbox, h.channel, fun d hd => ?_⟩
    rcases List.mem_append.1 hd with hmem | hmem
    · exact h.enqueued d hmem
    · rw [List.mem_singleton.1 hmem]
      exact hnumber

theorem Numbered.doPost {id : ℕ} (h : b.Numbered sessionId)
    (hnumber : id = sessionId → ∀ n ∈ p.number, n < (b.line sessionId).emitted.length) :
    (b.post id p).Numbered sessionId := by
  cases p with
  | broadcastActivity number event =>
    refine h.send fun n hn => ?_
    simp only [BusCommand.numbered, some.injEq, Prod.mk.injEq] at hn
    exact hnumber hn.1 n (by simp [Post.number, hn.2])
  | broadcastSessionStatus number status =>
    refine h.send fun n hn => ?_
    obtain ⟨k, hk, heq⟩ := map_eq_some_iff.1 hn
    simp only [Prod.mk.injEq] at heq
    exact hnumber heq.1 n (by simp [Post.number, hk, heq.2])
  | trackSessionSubscription id => exact h.send fun n hn => (by cases hn)
  | untrackSessionSubscription id | sessionExited => exact h.send fun n hn => (by cases hn)
  | enqueue id' number event => exact h.deliver hnumber
  | sendUnchecked id' event => exact h.deliver fun _ n hn => (by cases hn)

theorem outstanding_eq (houtbox : (b.line sessionId).outbox = p :: outbox) :
    b.outstanding start clientId sessionId = p.due start clientId (b.subscribed clientId sessionId) ++
      (b.popped sessionId outbox).outstanding start clientId sessionId := by
  unfold outstanding
  rw [subscribed_popped, line_popped, houtbox, List.flatMap_cons]

theorem emittedFrom_popped (b : Bus) :
    (b.popped sessionId outbox).emittedFrom start sessionId = b.emittedFrom start sessionId := by
  unfold emittedFrom
  rw [line_popped]

/-- An action that brings the client nothing. -/
theorem Window.popped (h : b.Window start clientId sessionId)
    (houtbox : (b.line sessionId).outbox = p :: outbox)
    (hdue : p.due start clientId (b.subscribed clientId sessionId) = []) :
    (b.popped sessionId outbox).Window start clientId sessionId where
  start_le := by
    rw [line_popped]
    exact h.start_le
  account := by
    have haccount := h.account
    rw [outstanding_eq houtbox, hdue, List.nil_append] at haccount
    rw [emittedFrom_popped, ← haccount]
    rfl
  covered := h.covered

theorem received_deliver (start sessionId : ℕ) (hclosed : b.closed.contains clientId = false)
    (id id' : ℕ) (number : Option ℕ) (event : SessionEvent) :
    (b.deliver id id' number event).received start clientId sessionId =
      b.received start clientId sessionId ++
        (Delivery.numberedFor start clientId sessionId ⟨id, id', number, event⟩).toList := by
  unfold Bus.deliver
  by_cases hid : b.closed.contains id = true
  · have hne : id ≠ clientId := by
      rintro rfl
      exact absurd (hclosed.symm.trans hid) Bool.false_ne_true
    rw [if_pos hid, Delivery.numberedFor, if_neg fun hc => hne hc.1]
    exact (List.append_nil _).symm
  · rw [if_neg hid]
    refine (received_append rfl).trans ?_
    cases hd : Delivery.numberedFor start clientId sessionId ⟨id, id', number, event⟩ <;> simp [hd]

theorem Window.deliver (h : b.Window start clientId sessionId)
    (hclosed : b.closed.contains clientId = false) {id id' : ℕ} {number : Option ℕ}
    {event : SessionEvent}
    (hother : Delivery.numberedFor start clientId sessionId ⟨id, id', number, event⟩ = none) :
    (b.deliver id id' number event).Window start clientId sessionId := by
  have hreceived := received_deliver start sessionId hclosed id id' number event
  rw [hother] at hreceived
  unfold Bus.deliver at hreceived ⊢
  by_cases hid : b.closed.contains id = true
  · rw [if_pos hid]
    exact h
  · rw [if_neg hid] at hreceived ⊢
    refine ⟨h.start_le, ?_, h.covered⟩
    rw [hreceived, toList_none, List.append_nil]
    exact h.account

theorem pending_eq_nil (h : (b.pending 0 clientId sessionId).isEmpty = true) (start : ℕ) :
    b.pending start clientId sessionId = [] := by
  refine results_eq_nil_of_imp (fun command f hnil => ?_) (List.isEmpty_iff.1 h)
  cases command with
  | broadcastActivity id number event =>
    simp only [BusCommand.due, Nat.zero_le, true_and, ite_eq_right_iff, reduceCtorEq, imp_false,
      not_and] at hnil ⊢
    exact fun hid _ => hnil hid
  | _ => rfl

theorem Window.post (h : b.Window start clientId sessionId) (hkept : b.Kept clientId sessionId)
    (hfollows : b.Follows clientId sessionId) (houtbox : (b.line sessionId).outbox = p :: outbox)
    (hturn : b.InTurn clientId sessionId (.post sessionId)) :
    ((b.popped sessionId outbox).post sessionId p).Window start clientId sessionId := by
  have hcoherent := hkept.coherent
  rw [houtbox] at hcoherent
  -- while the session forwards an event, the daemon's flag will be the session's one
  have hcovered : (b.settled clientId sessionId).tracked = b.subscribed clientId sessionId →
      (b.settled clientId sessionId).tracked = true ∨
        (b.settled clientId sessionId).active = true := by
    intro heq
    rw [heq]
    exact hfollows
  cases p with
  | broadcastActivity number event =>
    have hdue : (BusCommand.broadcastActivity sessionId number event).due start sessionId
        (b.settled clientId sessionId) =
          (Post.broadcastActivity number event).due start clientId
            (b.subscribed clientId sessionId) := by
      have htracked := hcoherent.1
      simp only [BusCommand.due, Post.due, true_and, htracked]
      cases hsubscribed : b.subscribed clientId sessionId with
      | true => simp
      | false =>
        rw [hsubscribed] at htracked
        rcases hcovered hcoherent.1 with hc | hc
        · exact absurd (htracked.symm.trans hc) Bool.false_ne_true
        · simp [hc]
    refine ⟨?_, ?_, always_concat h.covered trivial⟩
    · change start ≤ ((b.popped sessionId outbox).line sessionId).emitted.length
      rw [line_popped]
      exact h.start_le
    · have haccount := h.account
      rw [outstanding_eq houtbox, ← hdue] at haccount
      change b.received start clientId sessionId ++
        (Bus.pending start clientId sessionId (Bus.send _ (b.popped sessionId outbox)) ++
          (b.popped sessionId outbox).outstanding start clientId sessionId) =
        (b.popped sessionId outbox).emittedFrom start sessionId
      rw [pending_send, emittedFrom_popped, ← haccount, List.append_assoc]
      rfl
  | broadcastSessionStatus number status =>
    refine (h.popped houtbox rfl).send rfl ?_
    intro _ n _ _
    exact hcovered hcoherent.1
  | trackSessionSubscription id => exact (h.popped houtbox rfl).send rfl trivial
  | untrackSessionSubscription id | sessionExited => exact (h.popped houtbox rfl).send rfl trivial
  | sendUnchecked id event =>
    refine (h.popped houtbox rfl).deliver hkept.closed ?_
    simp [Delivery.numberedFor]
  | enqueue id number event =>
    by_cases hid : id = clientId
    · subst hid
      have hnil : b.pending start id sessionId = [] := by
        refine pending_eq_nil (hturn rfl ?_) start
        rw [houtbox]
        simp [Post.enqueuesTo]
      have hopen : (b.popped sessionId outbox).closed.contains id = false := hkept.closed
      have hreceived := received_deliver start sessionId hopen id sessionId (some number) event
      have hdue : (Delivery.numberedFor start id sessionId
          ⟨id, sessionId, some number, event⟩).toList =
            (Post.enqueue id number event).due start id (b.subscribed id sessionId) := by
        by_cases hstart : start ≤ number <;> simp [Delivery.numberedFor, Post.due, hstart]
      rw [hdue] at hreceived
      have haccount := h.account
      rw [outstanding_eq houtbox, hnil, List.nil_append] at haccount
      change Window start id sessionId (Bus.deliver id sessionId (some number) event _)
      unfold Bus.deliver at hreceived ⊢
      rw [if_neg (Bool.eq_false_iff.1 hopen)] at hreceived ⊢
      refine ⟨?_, ?_, h.covered⟩
      · change start ≤ ((b.popped sessionId outbox).line sessionId).emitted.length
        rw [line_popped]
        exact h.start_le
      · rw [hreceived]
        change _ ++ (b.pending start id sessionId ++
          (b.popped sessionId outbox).outstanding start id sessionId) =
            (b.popped sessionId outbox).emittedFrom start sessionId
        rw [hnil, List.nil_append, emittedFrom_popped, ← haccount, List.append_assoc]
        rfl
    · refine (h.popped houtbox (by simp [Post.due, hid])).deliver hkept.closed ?_
      simp [Delivery.numberedFor, hid]

end Post

/-! #### The other steps -/

/-- A step of another session. -/
theorem same_session (clientId : ℕ) {id : ℕ} (hid : id ≠ sessionId) (f : Line → Line) (b : Bus) :
    Same clientId sessionId b (b.modifyLine id f) where
  line := by rw [line_modifyLine, if_neg hid.symm]
  flags := rfl
  channel := rfl
  closed := rfl
  received _ := rfl
  enqueued := ⟨[], (List.append_nil _).symm, by simp⟩

theorem same_close (sessionId : ℕ) {id : ℕ} (hid : id ≠ clientId) (b : Bus) :
    Same clientId sessionId b { b with closed := b.closed.insert id } where
  line := rfl
  flags := rfl
  channel := rfl
  closed := by
    dsimp only
    rw [Std.ExtTreeSet.contains_insert_eq, decide_eq_false hid.symm, Bool.false_or]
  received _ := rfl
  enqueued := ⟨[], (List.append_nil _).symm, by simp⟩

/-- What another session enqueues. -/
theorem same_deliver {id' : ℕ} (hid' : id' ≠ sessionId)
    (hclosed : b.closed.contains clientId = false) (id : ℕ) (number : Option ℕ)
    (event : SessionEvent) : Same clientId sessionId b (b.deliver id id' number event) := by
  have hreceived : ∀ start, (b.deliver id id' number event).received start clientId sessionId =
      b.received start clientId sessionId := by
    intro start
    rw [received_deliver start sessionId hclosed, Delivery.numberedFor, if_neg fun hc => hid' hc.2]
    exact List.append_nil _
  unfold Bus.deliver at hreceived ⊢
  by_cases hid : b.closed.contains id = true
  · rw [if_pos hid]
    exact ⟨rfl, rfl, rfl, rfl, fun _ => rfl, [], (List.append_nil _).symm, by simp⟩
  · rw [if_neg hid] at hreceived ⊢
    refine ⟨rfl, rfl, rfl, rfl, hreceived, _, rfl, fun d hd hsession => ?_⟩
    rw [List.mem_singleton.1 hd] at hsession
    exact absurd hsession hid'

theorem Kept.sendOther (h : b.Kept clientId sessionId)
    (hstays : command.dismisses clientId = false)
    (hturn : ∀ f, (command.turn clientId sessionId f).tracked = f.tracked) :
    (b.send command).Kept clientId sessionId := by
  refine h.toSound.send hstays ?_
  rw [hturn]
  exact h.coherent

/-- An action of another session. -/
theorem post_other (start : ℕ) {id : ℕ} (hid : id ≠ sessionId) (p : Post)
    (hkept : b.Kept clientId sessionId) :
    (b.post id p).Kept clientId sessionId ∧
      (b.Window start clientId sessionId → (b.post id p).Window start clientId sessionId) := by
  cases p with
  | broadcastActivity number event =>
    exact ⟨hkept.sendOther rfl fun _ => rfl, fun h => h.send (if_neg fun hc => hid hc.1) trivial⟩
  | broadcastSessionStatus number status =>
    exact ⟨hkept.sendOther rfl fun _ => rfl, fun h => h.send rfl fun hc => absurd hc hid⟩
  | trackSessionSubscription id' | untrackSessionSubscription id' =>
    refine ⟨hkept.sendOther rfl fun f => ?_, fun h => h.send rfl trivial⟩
    rw [BusCommand.turn, if_neg fun hc => hid hc.2]
  | sessionExited => exact ⟨hkept.sendOther rfl fun _ => rfl, fun h => h.send rfl trivial⟩
  | enqueue id' number event =>
    have hsame := same_deliver hid hkept.closed id' (some number) event
    exact ⟨hsame.kept hkept, hsame.window⟩
  | sendUnchecked id' event =>
    have hsame := same_deliver hid hkept.closed id' none event
    exact ⟨hsame.kept hkept, hsame.window⟩

/-- The requests of connections carry no event, and do not change what the daemon knows of the
subscribers of sessions. -/
theorem request_turn (h : command.isRequest = true) :
    command.numbered = none ∧
      (∀ f, (command.turn clientId sessionId f).tracked = f.tracked) ∧
      ∀ start f, command.due start sessionId f = [] ∧ command.Covers start sessionId f := by
  cases command with
  | registerActivitySubscriber id | unregisterActivitySubscriber id =>
    refine ⟨rfl, fun f => ?_, fun _ _ => ⟨rfl, trivial⟩⟩
    by_cases hid : id = clientId <;> simp [BusCommand.turn, hid]
  | broadcastActivity _ _ _ => cases h
  | broadcastSessionStatus _ _ _ => cases h
  | trackSessionSubscription _ _ | untrackSessionSubscription _ _ | sessionExited _ => cases h
  | _ => exact ⟨rfl, fun _ => rfl, fun _ _ => ⟨rfl, trivial⟩⟩

/-- Every step keeps the numbers and, while the client stays connected and no thread leaves a
subscription of it behind, the daemon's view of it; a step while the client follows the session keeps
the account of its events. -/
theorem step_kept (start : ℕ) (hkept : b.Kept clientId sessionId) (hnumbered : b.Numbered sessionId)
    (hconnected : label.Connected clientId) (hcurrent : b.Current clientId sessionId label)
    (hstep : b.step setup label = some b') :
    b'.Kept clientId sessionId ∧ b'.Numbered sessionId ∧
      (b.Follows clientId sessionId → b.InTurn clientId sessionId label →
        b.Window start clientId sessionId → b'.Window start clientId sessionId) := by
  cases label with
  | session id slabel =>
    simp only [step, ite_none_right_eq_some] at hstep
    obtain ⟨hadmits, system, hsystem, rfl⟩ := And.imp_right map_eq_some_iff.1 hstep
    by_cases hid : id = sessionId
    · subst hid
      have hrestart : slabel.isRestart = true → b.subscribed clientId id = false := by
        intro h
        cases slabel with
        | restart boot => exact hcurrent rfl
        | _ => cases h
      exact ⟨hkept.session hadmits hrestart hsystem, hnumbered.session system,
        fun _ _ h => h.session hkept hadmits hrestart hsystem⟩
    · have hsame := same_session clientId hid (Line.advance system) b
      exact ⟨hsame.kept hkept, hsame.numbered hnumbered, fun _ _ => hsame.window⟩
  | post id =>
    cases houtbox : (b.line id).outbox with
    | nil =>
      simp only [step, houtbox] at hstep
      cases hstep
    | cons p outbox =>
      simp only [step, houtbox] at hstep
      cases hstep
      by_cases hid : id = sessionId
      · subst hid
        refine ⟨hkept.post houtbox, ?_, fun hfollows hturn h => h.post hkept hfollows houtbox hturn⟩
        refine (hnumbered.popped houtbox).doPost fun _ n hn => ?_
        rw [line_popped]
        exact hnumbered.outbox p (houtbox ▸ List.mem_cons_self) n hn
      · have hsame := same_session clientId hid
          (fun x => { x with outbox := outbox }) b
        obtain ⟨hkept', hwindow⟩ := post_other start hid p (hsame.kept hkept)
        exact ⟨hkept', (hsame.numbered hnumbered).doPost fun hc => absurd hc hid,
          fun _ _ h => hwindow (hsame.window h)⟩
  | request command =>
    simp only [step, ite_none_right_eq_some] at hstep
    obtain ⟨hrequest, rfl⟩ := And.imp_right some.inj hstep
    obtain ⟨hnumber, htracked, hdue⟩ := request_turn hrequest
    refine ⟨hkept.sendOther hconnected htracked, hnumbered.send fun n hn => ?_,
      fun _ _ h => h.send (hdue _ _).1 (hdue _ _).2⟩
    rw [hnumber] at hn
    cases hn
  | handle env =>
    cases hchannel : b.channel with
    | nil =>
      simp only [step, hchannel] at hstep
      cases hstep
    | cons command channel =>
      simp only [step, hchannel] at hstep
      cases hstep
      exact ⟨hkept.handle hchannel hconnected, hnumbered.handle hkept hchannel hconnected,
        fun _ _ h => h.handle hkept hchannel hconnected⟩
  | close id =>
    cases hstep
    have hsame := same_close sessionId hconnected b
    exact ⟨hsame.kept hkept, hsame.numbered hnumbered, fun _ _ => hsame.window⟩

/-! ### Whole runs -/

theorem boot_kept (stores : Std.ExtTreeMap ℕ Store) (clientId sessionId : ℕ) :
    (boot stores).Kept clientId sessionId ∧ (boot stores).Numbered sessionId := by
  obtain ⟨store, hline⟩ : ∃ store, (boot stores).line sessionId = { system := System.init store } := by
    unfold line boot
    dsimp only
    rw [Std.ExtTreeMap.getElem?_map]
    cases stores[sessionId]? with
    | none => exact ⟨{}, rfl⟩
    | some store => exact ⟨store, rfl⟩
  refine ⟨⟨⟨?_, ?_, Std.ExtTreeSet.contains_empty, by simp [boot]⟩, ?_⟩, ?_, by simp [boot],
    by simp [boot]⟩
  · rw [hline]
    exact System.init_invariant store
  · rw [hline]
    exact List.not_mem_nil
  · unfold subscribed
    rw [hline]
    change _ = _
    simp [settled, flags, tracks, boot, System.subscribed, System.init, after]
  · rw [hline]
    intro p hp
    exact absurd hp List.not_mem_nil

/-- A client stays connected from the start of the daemon, and no thread of the session leaves a
subscription of the client behind. For as long as the client follows the session, and no event of the
session overtakes another on its way to the client, every event that the session emits is enqueued to
the client once and in its place. -/
theorem delivers_of_run {stores : Std.ExtTreeMap ℕ Store} {before window : List BusLabel}
    {b₀ b : Bus} (hbefore : run (step setup) before (boot stores) = some b₀)
    (hwindow : run (step setup) window b₀ = some b)
    (hconnected : ∀ label ∈ before ++ window, label.Connected clientId)
    (hcurrent : Along (step setup) (fun label b => b.Current clientId sessionId label)
      (before ++ window) (boot stores))
    (hfollows : Along (step setup)
      (fun label b => b.Follows clientId sessionId ∧ b.InTurn clientId sessionId label) window b₀) :
    b.Delivers (b₀.line sessionId).emitted.length clientId sessionId := by
  have hlabels := hcurrent.and_labels hconnected
  rw [along_append hbefore] at hlabels
  obtain ⟨hkept, hnumbered⟩ := boot_kept stores clientId sessionId
  have hstart : b₀.Kept clientId sessionId ∧ b₀.Numbered sessionId := by
    refine invariant_of_along (I := fun b => b.Kept clientId sessionId ∧ b.Numbered sessionId)
      (fun label b b' hlabel hb hstep => ?_) ⟨hkept, hnumbered⟩ hlabels.1 hbefore
    have h := step_kept 0 hb.1 hb.2 hlabel.1 hlabel.2 hstep
    exact ⟨h.1, h.2.1⟩
  refine Window.delivers ?_
  refine (invariant_of_along (I := fun b => (b.Kept clientId sessionId ∧ b.Numbered sessionId) ∧
    b.Window (b₀.line sessionId).emitted.length clientId sessionId)
    (fun label b b' hlabel hb hstep => ?_) ⟨hstart, hstart.2.window clientId⟩
    (hlabels.2.and hfollows) hwindow).2
  have h := step_kept (b₀.line sessionId).emitted.length hb.1.1 hb.1.2 hlabel.1.1
    hlabel.1.2 hstep
  exact ⟨⟨h.1, h.2.1⟩, h.2.2 hlabel.2.1 hlabel.2.2 hb.2⟩

instance (clientId sessionId : ℕ) (b : Bus) : Decidable (b.Follows clientId sessionId) :=
  inferInstanceAs (Decidable (_ ∨ _))

instance (clientId sessionId : ℕ) (label : BusLabel) (b : Bus) :
    Decidable (b.Current clientId sessionId label) :=
  match label with
  | .session _ (.restart _) => inferInstanceAs (Decidable (_ → _))
  | .session _ (.send _) | .session _ (.process _) | .session _ (.work _) => isTrue trivial
  | .post _ | .request _ | .handle _ | .close _ => isTrue trivial

instance (clientId sessionId : ℕ) (label : BusLabel) (b : Bus) :
    Decidable (b.InTurn clientId sessionId label) :=
  match label with
  | .post _ => inferInstanceAs (Decidable (_ → _ → _))
  | .session .. | .request _ | .handle _ | .close _ => isTrue trivial

end Bus

instance (clientId : ℕ) (label : BusLabel) : Decidable (label.Connected clientId) :=
  match label with
  | .close _ => inferInstanceAs (Decidable (_ ≠ _))
  | .request _ => inferInstanceAs (Decidable (_ = _))
  | .handle _ => inferInstanceAs (Decidable (_ ∉ _))
  | .session .. | .post _ => isTrue trivial

namespace Sample

/-- The daemon on a database with session 1. -/
def sampleBus : Bus := Bus.boot (Std.ExtTreeMap.ofList [(1, oneTurn)])

/-- A command arrives at session 1 and is handled, and the thread does the given number of things. -/
def busPost (command : SessionCommand) (n : ℕ) : List BusLabel :=
  [.session 1 (.send command), .session 1 (.process env)] ++ List.replicate n (.post 1)

/-- The daemon handles a number of commands. -/
def busHandle (n : ℕ) : List BusLabel := List.replicate n (.handle { lastModified := some 0 })

def watched : List BusLabel :=
  [.session 1 (.restart boot), .post 1, .request (.registerActivitySubscriber 7)] ++ busHandle 2

/-- The session emits an event, client 7 attaches, and the session emits another event, which client 7
gets directly. The daemon handles the first event before, or after. -/
def attachWhileWatching (first : Bool) : List BusLabel :=
  busPost (.setTitle "a") 1 ++ (if first then busHandle 1 else []) ++ busPost (.attach 7) 2 ++
    busPost (.setTitle "b") 2 ++ busHandle (if first then 2 else 3)

/-- The thread of session 1 is shut down while client 7 subscribes to it, the client subscribes to all
activity, and the session is started again. -/
def attachedThenWatching : List BusLabel :=
  [.session 1 (.restart boot), .post 1] ++ busPost (.attach 7) 2 ++ busPost .shutdown 1 ++
    [.request (.registerActivitySubscriber 7)] ++ busHandle 4

/-- The session is started again, and emits an event. -/
def titleAfterRestart : List BusLabel :=
  [.session 1 (.restart boot), .post 1] ++ busPost (.setTitle "a") 1 ++ busHandle 2

end Sample

namespace Bus

open Sample

theorem exists_of_check (before window : List BusLabel) (P : Bus → Bus → Bool)
    (h : ((run (step setup) before sampleBus).bind fun b₀ =>
      (run (step setup) window b₀).map (P b₀)) = some true) :
    ∃ b₀ b, run (step setup) before sampleBus = some b₀ ∧ run (step setup) window b₀ = some b ∧
      P b₀ b = true := by
  obtain ⟨b₀, hb₀, h⟩ := bind_eq_some_iff.1 h
  obtain ⟨b, hb, hP⟩ := map_eq_some_iff.1 h
  exact ⟨b₀, b, hb₀, hb, hP⟩

/-- A client that attaches to a session while it subscribes to all activity gets both events. -/
theorem delivers_of_run_attach : ∃ b₀ b, run (step setup) watched sampleBus = some b₀ ∧
    run (step setup) (attachWhileWatching true) b₀ = some b ∧
      (b.received 1 7 1).map Prod.snd = [1, 2] ∧ (b₀.line 1).emitted.length = 1 ∧
      b.Delivers (b₀.line 1).emitted.length 7 1 := by
  obtain ⟨b₀, b, hb₀, hb, hP⟩ := exists_of_check watched (attachWhileWatching true)
    (fun b₀ b => decide ((b.received 1 7 1).map Prod.snd = [1, 2] ∧
      (b₀.line 1).emitted.length = 1 ∧
      Along (step setup) (fun label b => b.Follows 7 1 ∧ b.InTurn 7 1 label)
        (attachWhileWatching true) b₀)) (by decide +kernel)
  obtain ⟨hreceived, hemitted, hfollows⟩ := of_decide_eq_true hP
  exact ⟨b₀, b, hb₀, hb, hreceived, hemitted,
    delivers_of_run hb₀ hb (by decide +kernel) (by decide +kernel) hfollows⟩

theorem not_delivers_of_numbers {start clientId sessionId : ℕ} {b : Bus} {numbers : List ℕ}
    (hreceived : (b.received start clientId sessionId).map Prod.snd = numbers)
    (hpre : ¬ numbers <+: (b.emittedFrom start sessionId).map Prod.snd) :
    ¬ b.Delivers start clientId sessionId := by
  intro h
  refine hpre ?_
  rw [← hreceived]
  exact h.1.map Prod.snd

/-- The client follows the session all the time, on the activity bus and then as a subscriber, and it
gets the second event before the first. -/
theorem not_delivers_overtaken : ∃ b₀ b, run (step setup) watched sampleBus = some b₀ ∧
    run (step setup) (attachWhileWatching false) b₀ = some b ∧
      (∀ label ∈ watched ++ attachWhileWatching false, label.Connected 7) ∧
      Along (step setup) (fun label b => b.Current 7 1 label)
        (watched ++ attachWhileWatching false) sampleBus ∧
      Along (step setup) (fun _ b => b.Follows 7 1) (attachWhileWatching false) b₀ ∧
      ¬ b.Delivers (b₀.line 1).emitted.length 7 1 := by
  obtain ⟨b₀, b, hb₀, hb, hP⟩ := exists_of_check watched (attachWhileWatching false)
    (fun b₀ b => decide (Along (step setup) (fun _ b => b.Follows 7 1)
        (attachWhileWatching false) b₀ ∧
      (b.received (b₀.line 1).emitted.length 7 1).map Prod.snd = [2, 1] ∧
      (b.emittedFrom (b₀.line 1).emitted.length 1).map Prod.snd = [1, 2])) (by decide +kernel)
  obtain ⟨hfollows, hreceived, hemitted⟩ := of_decide_eq_true hP
  refine ⟨b₀, b, hb₀, hb, by decide +kernel, by decide +kernel, hfollows,
    not_delivers_of_numbers hreceived ?_⟩
  rw [hemitted]
  decide

/-- A thread ended with the client as a subscriber. The next one emits an event, which the daemon
still keeps from the client on the activity bus. -/
theorem not_delivers_left : ∃ b₀ b, run (step setup) attachedThenWatching sampleBus = some b₀ ∧
    run (step setup) titleAfterRestart b₀ = some b ∧
      (∀ label ∈ attachedThenWatching ++ titleAfterRestart, label.Connected 7) ∧
      Along (step setup) (fun label b => b.Follows 7 1 ∧ b.InTurn 7 1 label)
        titleAfterRestart b₀ ∧
      ¬ b.Delivers (b₀.line 1).emitted.length 7 1 := by
  obtain ⟨b₀, b, hb₀, hb, hP⟩ := exists_of_check attachedThenWatching titleAfterRestart
    (fun b₀ b => decide (Along (step setup) (fun label b => b.Follows 7 1 ∧ b.InTurn 7 1 label)
        titleAfterRestart b₀ ∧
      (b.received (b₀.line 1).emitted.length 7 1).map Prod.snd = [] ∧
      (b.emittedFrom (b₀.line 1).emitted.length 1).map Prod.snd = [1, 2] ∧
      (b.line 1).outbox.isEmpty = true ∧
      (b.channel.all fun command => command.origin ≠ some 1) = true)) (by decide +kernel)
  obtain ⟨hfollows, hreceived, hemitted, houtbox, hchannel⟩ := of_decide_eq_true hP
  refine ⟨b₀, b, hb₀, hb, by decide +kernel, hfollows, fun h => ?_⟩
  have hdrained : b.Drained 1 :=
    ⟨List.isEmpty_iff.1 houtbox, fun command hmem =>
      of_decide_eq_true (List.all_eq_true.1 hchannel command hmem)⟩
  rw [← h.2 hdrained, hreceived] at hemitted
  cases hemitted

end Bus

end Choreo
