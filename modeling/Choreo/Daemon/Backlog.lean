import Choreo.Library.Runs
import Choreo.Wire.Size

/-!
# The backlog of the clients

The daemon counts the bytes that wait for each client and for all clients together
(`choreo-daemon/src/broadcast.rs`, and the writer thread in
`choreo-daemon/src/server/connection.rs`). Any number of threads put messages into the queue of a
client; its writer thread takes them out. Each counter is changed in a step of its own, so between
two steps a message may be counted in one of them only.
-/

namespace Choreo

open List Option

open Wire (DaemonMessage)

/-- Messages after which the writer thread closes the connection. -/
def stopsWriter : DaemonMessage → Bool
  | .shuttingDown | .evicted => true
  | _ => false

/-- How far a thread is that puts a message into a queue: the shared counter is raised, both are,
the receiver is gone, or the client's counter is lowered again. -/
inductive SendPhase
  | countedGlobal
  | counted
  | refused
  | restored
deriving DecidableEq

/-- How far a connection is: before its writer thread runs, waiting for a message, a message is
taken, the client's counter is lowered for it, what is left in the queue is taken, nothing is left,
and the receiver is dropped. A message is the last one when the writer thread stops after it. -/
inductive WriterPhase
  | handshake
  | waiting
  | taken (msg : DaemonMessage) (last : Bool)
  | lowered (msg : DaemonMessage) (last : Bool)
  | draining
  | drained
  | gone
deriving DecidableEq

/-- The queue of a client and its counter, the threads that put messages into it, and its writer
thread. -/
structure SubscriberSink where
  bytesInFlight : ℕ := 0
  queue : List DaemonMessage := []
  sends : List (SendPhase × DaemonMessage) := []
  writer : WriterPhase := .handshake
deriving DecidableEq

/-- The steps of the threads of a client: the handshake succeeds or fails; a thread raises the
shared counter for a message, raises the client's, puts the message into the queue, and lowers the
two again when the receiver is gone; the writer thread takes a message, lowers the client's counter
when it is written or could not be written, and then the shared one; it finds that nobody can send
any more or that nothing is left, and it ends. -/
inductive SinkLabel
  | startWriter
  | abort
  | addGlobal (msg : DaemonMessage)
  | addClient (j : ℕ)
  | send (j : ℕ)
  | subClient (j : ℕ)
  | subGlobal (j : ℕ)
  | take
  | written (ok : Bool)
  | settle
  | disconnected
  | leave
  | exit
deriving DecidableEq

def queueBytes (msgs : List DaemonMessage) : ℕ := (msgs.map DaemonMessage.approxWireSize).sum

namespace SubscriberSink

variable (label : SinkLabel)

/-- A step of a client's threads, and the bytes that the shared counter is raised and lowered by. -/
def act (sink : SubscriberSink) : Option (SubscriberSink × ℕ × ℕ) :=
  match label with
  | .startWriter =>
    if sink.writer = .handshake then some ({ sink with writer := .waiting }, 0, 0) else none
  | .abort =>
    if sink.writer = .handshake then some ({ sink with writer := .gone, queue := [] }, 0, 0)
    else none
  | .addGlobal msg =>
    some ({ sink with sends := sink.sends ++ [(.countedGlobal, msg)] }, msg.approxWireSize, 0)
  | .addClient j =>
    match sink.sends[j]? with
    | some (.countedGlobal, msg) =>
      some ({ sink with
        bytesInFlight := sink.bytesInFlight + msg.approxWireSize
        sends := sink.sends.set j (.counted, msg) }, 0, 0)
    | _ => none
  | .send j =>
    match sink.sends[j]? with
    | some (.counted, msg) =>
      if sink.writer = .gone then
        some ({ sink with sends := sink.sends.set j (.refused, msg) }, 0, 0)
      else
        some ({ sink with queue := sink.queue ++ [msg], sends := sink.sends.eraseIdx j }, 0, 0)
    | _ => none
  | .subClient j =>
    match sink.sends[j]? with
    | some (.refused, msg) =>
      some ({ sink with
        bytesInFlight := sink.bytesInFlight - msg.approxWireSize
        sends := sink.sends.set j (.restored, msg) }, 0, 0)
    | _ => none
  | .subGlobal j =>
    match sink.sends[j]? with
    | some (.restored, msg) =>
      some ({ sink with sends := sink.sends.eraseIdx j }, 0, msg.approxWireSize)
    | _ => none
  | .take =>
    match sink.writer, sink.queue with
    | .waiting, msg :: queue =>
      some ({ sink with writer := .taken msg false, queue := queue }, 0, 0)
    | .draining, msg :: queue =>
      some ({ sink with writer := .taken msg true, queue := queue }, 0, 0)
    | _, _ => none
  | .written ok =>
    match sink.writer with
    | .taken msg last =>
      some ({ sink with
        bytesInFlight := sink.bytesInFlight - msg.approxWireSize
        writer := .lowered msg (last || !ok || stopsWriter msg) }, 0, 0)
    | _ => none
  | .settle =>
    match sink.writer with
    | .lowered msg last =>
      some ({ sink with writer := if last then .draining else .waiting }, 0, msg.approxWireSize)
    | _ => none
  | .disconnected =>
    if sink.writer = .waiting ∧ sink.queue = [] ∧ sink.sends = [] then
      some ({ sink with writer := .draining }, 0, 0)
    else none
  | .leave =>
    if sink.writer = .draining ∧ sink.queue = [] then some ({ sink with writer := .drained }, 0, 0)
    else none
  | .exit =>
    if sink.writer = .drained then some ({ sink with writer := .gone, queue := [] }, 0, 0) else none

/-! ### What the counters stand for -/

/-- The bytes of a message that is put into the queue, as the client's counter has them. -/
def sendClientBytes (p : SendPhase × DaemonMessage) : ℕ :=
  match p.1 with
  | .counted | .refused => p.2.approxWireSize
  | .countedGlobal | .restored => 0

/-- The bytes of the message that the writer thread has taken, as the client's counter has them. -/
def writerClientBytes : WriterPhase → ℕ
  | .taken msg _ => msg.approxWireSize
  | _ => 0

/-- The bytes of the message that the writer thread has taken, as the shared counter has them. -/
def writerGlobalBytes : WriterPhase → ℕ
  | .taken msg _ | .lowered msg _ => msg.approxWireSize
  | _ => 0

/-- The bytes that the client's counter stands for: those in the queue, those that a thread has
counted and not put there yet, and those that the writer thread has taken and not settled. -/
def clientBytes (sink : SubscriberSink) : ℕ :=
  queueBytes sink.queue + (sink.sends.map sendClientBytes).sum + writerClientBytes sink.writer

/-- The bytes of a client that the shared counter stands for. -/
def globalBytes (sink : SubscriberSink) : ℕ :=
  queueBytes sink.queue + (sink.sends.map fun p => p.2.approxWireSize).sum +
    writerGlobalBytes sink.writer

/-- The bytes in the queue when its receiver is dropped. -/
def dropped (sink : SubscriberSink) : ℕ :=
  match label with
  | .abort | .exit => queueBytes sink.queue
  | _ => 0

/-- What a step takes off the client's counter. -/
def loweredBy (sink : SubscriberSink) : ℕ :=
  match label with
  | .subClient j => ((sink.sends[j]?).map fun p => p.2.approxWireSize).getD 0
  | .written _ => writerClientBytes sink.writer
  | _ => 0

/-! ### One client -/

theorem queueBytes_cons (msg : DaemonMessage) (msgs : List DaemonMessage) :
    queueBytes (msg :: msgs) = msg.approxWireSize + queueBytes msgs := by
  rw [queueBytes, queueBytes, map_cons, sum_cons]

theorem queueBytes_concat (msgs : List DaemonMessage) (msg : DaemonMessage) :
    queueBytes (msgs ++ [msg]) = queueBytes msgs + msg.approxWireSize := by
  rw [queueBytes, queueBytes, map_append, sum_append, map_singleton,
    sum_singleton]

theorem sum_map_set {α : Type*} (f : α → ℕ) {l : List α} {i : ℕ} {a : α} (h : l[i]? = some a)
    (b : α) : ((l.set i b).map f).sum + f a = (l.map f).sum + f b := by
  induction l generalizing i with
  | nil => cases h
  | cons x l ih =>
    rcases i with _ | i
    · cases h
      simp only [set_cons_zero, map_cons, sum_cons]
      omega
    · have hrest := ih h
      simp only [set_cons_succ, map_cons, sum_cons]
      omega

theorem sum_map_eraseIdx {α : Type*} (f : α → ℕ) {l : List α} {i : ℕ} {a : α}
    (h : l[i]? = some a) : ((l.eraseIdx i).map f).sum + f a = (l.map f).sum := by
  induction l generalizing i with
  | nil => cases h
  | cons x l ih =>
    rcases i with _ | i
    · cases h
      simp only [eraseIdx_cons_zero, map_cons, sum_cons]
      omega
    · have hrest := ih h
      simp only [eraseIdx_cons_succ, map_cons, sum_cons]
      omega

theorem le_sum_map {α : Type*} (f : α → ℕ) {l : List α} {i : ℕ} {a : α} (h : l[i]? = some a) :
    f a ≤ (l.map f).sum :=
  sum_map_eraseIdx f h ▸ Nat.le_add_left _ _

/-- What a step does to the counters and to what they stand for. -/
structure Moves (label : SinkLabel) (sink sink' : SubscriberSink) (raised lowered : ℕ) : Prop where
  global : sink'.globalBytes + lowered + sink.dropped label = sink.globalBytes + raised
  lowered_le : lowered ≤ sink.globalBytes
  client : sink.loweredBy label ≤ sink.bytesInFlight →
    sink'.bytesInFlight + sink.clientBytes =
      sink.bytesInFlight + sink'.clientBytes + sink.dropped label
  loweredBy_le : sink.loweredBy label ≤ sink.clientBytes
  running : sink'.writer ≠ .gone → sink.writer ≠ .gone ∧ sink.dropped label = 0
  gone : (sink.writer = .gone → sink.queue = []) → sink'.writer = .gone → sink'.queue = []

variable {label : SinkLabel} {sink sink' : SubscriberSink} {raised lowered : ℕ}

theorem moves_of_sends {j : ℕ} {p : SendPhase × DaemonMessage} (hget : sink.sends[j]? = some p)
    (hwriter : sink'.writer = sink.writer) (hdropped : sink.dropped label = 0)
    (hqueue : sink.writer = .gone → sink'.queue = sink.queue)
    (hglobal : sink'.globalBytes + lowered = sink.globalBytes + raised)
    (hlowered : lowered ≤ p.2.approxWireSize)
    (hloweredBy : sink.loweredBy label ≤ sendClientBytes p)
    (hclient : sink.loweredBy label ≤ sink.bytesInFlight →
      sink'.bytesInFlight + sink.clientBytes = sink.bytesInFlight + sink'.clientBytes) :
    Moves label sink sink' raised lowered := by
  have hsize := le_sum_map (fun p : SendPhase × DaemonMessage => p.2.approxWireSize) hget
  have hcounted := le_sum_map sendClientBytes hget
  refine ⟨?_, ?_, fun hle => ?_, ?_, fun hrun => ⟨hwriter ▸ hrun, hdropped⟩, fun hgone hw => ?_⟩
  · rw [hdropped]
    exact hglobal
  · rw [globalBytes]
    omega
  · rw [hdropped]
    exact hclient hle
  · rw [clientBytes]
    omega
  · rw [hwriter] at hw
    rw [hqueue hw]
    exact hgone hw

/-- A step of the writer thread that leaves both counters as they are. -/
theorem moves_of_phase (hbytes : sink'.bytesInFlight = sink.bytesInFlight)
    (hsends : sink'.sends = sink.sends) (hloweredBy : sink.loweredBy label = 0)
    (hdropped : sink.dropped label = 0) (hwriter : sink.writer ≠ .gone)
    (hwriter' : sink'.writer ≠ .gone)
    (hclient : queueBytes sink'.queue + writerClientBytes sink'.writer =
      queueBytes sink.queue + writerClientBytes sink.writer)
    (hglobal : queueBytes sink'.queue + writerGlobalBytes sink'.writer =
      queueBytes sink.queue + writerGlobalBytes sink.writer) : Moves label sink sink' 0 0 := by
  refine ⟨?_, Nat.zero_le _, fun _ => ?_, hloweredBy ▸ Nat.zero_le _, fun _ => ⟨hwriter, hdropped⟩,
    fun _ hgone => absurd hgone hwriter'⟩
  · rw [globalBytes, globalBytes, hsends, hdropped]
    omega
  · rw [clientBytes, clientBytes, hsends, hdropped, hbytes]
    omega

theorem moves_of_drop (hloweredBy : sink.loweredBy label = 0)
    (hdropped : sink.dropped label = queueBytes sink.queue)
    (hclient : writerClientBytes sink.writer = 0) (hglobal : writerGlobalBytes sink.writer = 0) :
    Moves label sink { sink with writer := .gone, queue := [] } 0 0 := by
  refine ⟨?_, Nat.zero_le _, fun _ => ?_, hloweredBy ▸ Nat.zero_le _, fun hrun => absurd rfl hrun,
    fun _ _ => rfl⟩
  · have hnone : globalBytes { sink with writer := .gone, queue := [] } =
        (sink.sends.map fun p => p.2.approxWireSize).sum := Nat.zero_add _
    rw [hnone, hdropped, globalBytes, hglobal]
    omega
  · have hnone : clientBytes { sink with writer := .gone, queue := [] } =
        (sink.sends.map sendClientBytes).sum := Nat.zero_add _
    rw [hnone, hdropped, clientBytes, hclient]
    dsimp only
    omega

/-- Every step moves the counters with what they stand for. -/
theorem act_moves (h : sink.act label = some (sink', raised, lowered)) :
    Moves label sink sink' raised lowered := by
  rcases label with _ | _ | msg | j | j | j | j | _ | ok | _ | _ | _ | _
  · simp only [act] at h
    split at h
    · rename_i hwriter
      obtain ⟨rfl, rfl, rfl⟩ := h
      exact moves_of_phase rfl rfl rfl rfl (by simp [hwriter]) (by simp) (by rw [hwriter]; rfl)
        (by rw [hwriter]; rfl)
    · cases h
  · simp only [act] at h
    split at h
    · rename_i hwriter
      obtain ⟨rfl, rfl, rfl⟩ := h
      exact moves_of_drop rfl rfl (by rw [hwriter]; rfl) (by rw [hwriter]; rfl)
    · cases h
  · obtain ⟨rfl, rfl, rfl⟩ := h
    refine ⟨?_, Nat.zero_le _, fun _ => ?_, Nat.zero_le _, fun hrun => ⟨hrun, rfl⟩,
      fun hgone hw => hgone hw⟩
    · simp only [globalBytes, dropped, map_append, sum_append, map_singleton,
        sum_singleton]
      omega
    · simp only [clientBytes, dropped, map_append, sum_append, map_singleton,
        sum_singleton, sendClientBytes]
      omega
  · simp only [act] at h
    split at h
    · rename_i msg hget
      obtain ⟨rfl, rfl, rfl⟩ := h
      have hglobal := sum_map_set (fun p : SendPhase × DaemonMessage => p.2.approxWireSize) hget
        (.counted, msg)
      have hclient := sum_map_set sendClientBytes hget (.counted, msg)
      simp only [sendClientBytes] at hglobal hclient
      refine moves_of_sends hget rfl rfl (fun _ => rfl) ?_ (Nat.zero_le _) (Nat.zero_le _)
        fun _ => ?_
      · simp only [globalBytes]
        omega
      · simp only [clientBytes]
        omega
    · cases h
  · simp only [act] at h
    split at h
    · rename_i msg hget
      split at h
      · obtain ⟨rfl, rfl, rfl⟩ := h
        have hglobal := sum_map_set (fun p : SendPhase × DaemonMessage => p.2.approxWireSize) hget
          (.refused, msg)
        have hclient := sum_map_set sendClientBytes hget (.refused, msg)
        simp only [sendClientBytes] at hglobal hclient
        refine moves_of_sends hget rfl rfl (fun _ => rfl) ?_ (Nat.zero_le _) (Nat.zero_le _)
          fun _ => ?_
        · simp only [globalBytes]
          omega
        · simp only [clientBytes]
          omega
      · rename_i hwriter
        obtain ⟨rfl, rfl, rfl⟩ := h
        have hglobal := sum_map_eraseIdx (fun p : SendPhase × DaemonMessage => p.2.approxWireSize)
          hget
        have hclient := sum_map_eraseIdx sendClientBytes hget
        simp only [sendClientBytes] at hglobal hclient
        refine moves_of_sends hget rfl rfl (fun hw => absurd hw hwriter) ?_ (Nat.zero_le _)
          (Nat.zero_le _) fun _ => ?_
        · simp only [globalBytes, queueBytes_concat]
          omega
        · simp only [clientBytes, queueBytes_concat]
          omega
    · cases h
  · simp only [act] at h
    split at h
    · rename_i msg hget
      obtain ⟨rfl, rfl, rfl⟩ := h
      have hglobal := sum_map_set (fun p : SendPhase × DaemonMessage => p.2.approxWireSize) hget
        (.restored, msg)
      have hclient := sum_map_set sendClientBytes hget (.restored, msg)
      simp only [sendClientBytes] at hglobal hclient
      refine moves_of_sends hget rfl rfl (fun _ => rfl) ?_ (Nat.zero_le _) ?_ fun hle => ?_
      · simp only [globalBytes]
        omega
      · simp only [loweredBy, hget, map_some, getD_some, sendClientBytes, le_refl]
      · simp only [loweredBy, hget, map_some, getD_some] at hle
        simp only [clientBytes]
        omega
    · cases h
  · simp only [act] at h
    split at h
    · rename_i msg hget
      obtain ⟨rfl, rfl, rfl⟩ := h
      have hglobal := sum_map_eraseIdx (fun p : SendPhase × DaemonMessage => p.2.approxWireSize)
        hget
      have hclient := sum_map_eraseIdx sendClientBytes hget
      simp only [sendClientBytes] at hglobal hclient
      refine moves_of_sends hget rfl rfl (fun _ => rfl) ?_ le_rfl (Nat.zero_le _) fun _ => ?_
      · simp only [globalBytes]
        omega
      · simp only [clientBytes]
        omega
    · cases h
  · simp only [act] at h
    split at h
    · rename_i hwriter hqueue
      obtain ⟨rfl, rfl, rfl⟩ := h
      refine moves_of_phase rfl rfl rfl rfl (by simp [hwriter]) (by simp) ?_ ?_ <;>
        simp only [hwriter, hqueue, queueBytes_cons, writerClientBytes, writerGlobalBytes] <;>
        omega
    · rename_i hwriter hqueue
      obtain ⟨rfl, rfl, rfl⟩ := h
      refine moves_of_phase rfl rfl rfl rfl (by simp [hwriter]) (by simp) ?_ ?_ <;>
        simp only [hwriter, hqueue, queueBytes_cons, writerClientBytes, writerGlobalBytes] <;>
        omega
    · cases h
  · simp only [act] at h
    split at h
    · rename_i msg last hwriter
      obtain ⟨rfl, rfl, rfl⟩ := h
      refine ⟨?_, Nat.zero_le _, fun hle => ?_, ?_, fun _ => ⟨?_, rfl⟩, fun _ hw => ?_⟩
      · simp only [globalBytes, dropped, writerGlobalBytes, hwriter, Nat.add_zero]
      · simp only [loweredBy, writerClientBytes, hwriter] at hle
        simp only [clientBytes, dropped, writerClientBytes, hwriter]
        omega
      · simp only [loweredBy, clientBytes]
        omega
      · rw [hwriter]
        exact WriterPhase.noConfusion
      · cases hw
    · cases h
  · simp only [act] at h
    split at h
    · rename_i msg last hwriter
      obtain ⟨rfl, rfl, rfl⟩ := h
      have hphase : writerGlobalBytes (if last then .draining else .waiting) = 0 ∧
          writerClientBytes (if last then .draining else .waiting) = 0 := by
        rcases last <;> exact ⟨rfl, rfl⟩
      refine ⟨?_, ?_, fun _ => ?_, Nat.zero_le _, fun _ => ⟨?_, rfl⟩, fun _ hw => ?_⟩
      · simp only [globalBytes, dropped, hphase.1]
        simp only [writerGlobalBytes, hwriter]
        omega
      · simp only [globalBytes, writerGlobalBytes, hwriter]
        omega
      · simp only [clientBytes, dropped, hphase.2]
        simp only [writerClientBytes, hwriter]
        omega
      · rw [hwriter]
        exact WriterPhase.noConfusion
      · rcases last <;> cases hw
    · cases h
  · simp only [act] at h
    split at h
    · rename_i hidle
      obtain ⟨rfl, rfl, rfl⟩ := h
      exact moves_of_phase rfl rfl rfl rfl (by simp [hidle.1]) (by simp) (by rw [hidle.1]; rfl)
        (by rw [hidle.1]; rfl)
    · cases h
  · simp only [act] at h
    split at h
    · rename_i hidle
      obtain ⟨rfl, rfl, rfl⟩ := h
      exact moves_of_phase rfl rfl rfl rfl (by simp [hidle.1]) (by simp) (by rw [hidle.1]; rfl)
        (by rw [hidle.1]; rfl)
    · cases h
  · simp only [act] at h
    split at h
    · rename_i hwriter
      obtain ⟨rfl, rfl, rfl⟩ := h
      exact moves_of_drop rfl rfl (by rw [hwriter]; rfl) (by rw [hwriter]; rfl)
    · cases h

end SubscriberSink

/-- All clients, and the counter that they share. -/
structure Backlog where
  globalLag : ℕ := 0
  sinks : List SubscriberSink := []
deriving DecidableEq

/-- A connection is accepted, or a thread of a client makes a step. -/
inductive BacklogLabel
  | register
  | sink (i : ℕ) (label : SinkLabel)
deriving DecidableEq

namespace Backlog

variable (label : BacklogLabel)

/-- The steps of the daemon's clients. -/
def step (s : Backlog) : Option Backlog :=
  match label with
  | .register => some { s with sinks := s.sinks ++ [{}] }
  | .sink i label =>
    (s.sinks[i]?).bind fun sink =>
      (sink.act label).map fun (sink, raised, lowered) =>
        { globalLag := s.globalLag + raised - lowered, sinks := s.sinks.set i sink }

/-- The bytes in the queue of a receiver that is dropped. -/
def dropped (s : Backlog) : ℕ :=
  match label with
  | .register => 0
  | .sink i label => ((s.sinks[i]?).map (·.dropped label)).getD 0

/-- What all clients together have waiting. -/
def held (s : Backlog) : ℕ := (s.sinks.map SubscriberSink.globalBytes).sum

/-- A step takes no more off a counter than there is. -/
def NoUnderflow (s : Backlog) : Prop :=
  match label with
  | .register => True
  | .sink i label => ∀ sink sink' raised lowered, s.sinks[i]? = some sink →
    sink.act label = some (sink', raised, lowered) →
      sink.loweredBy label ≤ sink.bytesInFlight ∧ lowered ≤ s.globalLag + raised

/-- The counter of a client is at least what it stands for, and just that as long as there is a
receiver; a dropped queue is empty. -/
structure Accounted (sink : SubscriberSink) : Prop where
  le : sink.clientBytes ≤ sink.bytesInFlight
  eq : sink.writer ≠ .gone → sink.bytesInFlight = sink.clientBytes
  gone : sink.writer = .gone → sink.queue = []

variable {s s' : Backlog} {label : BacklogLabel}

theorem Accounted.moves {label : SinkLabel} {sink sink' : SubscriberSink} {raised lowered : ℕ}
    (hsink : Accounted sink) (h : SubscriberSink.Moves label sink sink' raised lowered) :
    Accounted sink' := by
  have hclient := h.client (h.loweredBy_le.trans hsink.le)
  have hle := hsink.le
  refine ⟨by omega, fun hrun => ?_, h.gone hsink.gone⟩
  obtain ⟨hrunning, hnone⟩ := h.running hrun
  have heq := hsink.eq hrunning
  omega

/-- What holds in every state: every client's counter is accounted for, and the shared counter is at
least what all clients have waiting. -/
structure Inv (s : Backlog) : Prop where
  sinks : ∀ sink ∈ s.sinks, Accounted sink
  held_le : s.held ≤ s.globalLag

theorem held_set {i : ℕ} {sink : SubscriberSink} (hget : s.sinks[i]? = some sink)
    (sink' : SubscriberSink) (lag : ℕ) :
    held { globalLag := lag, sinks := s.sinks.set i sink' } + sink.globalBytes =
      s.held + sink'.globalBytes := SubscriberSink.sum_map_set _ hget sink'

/-- A step keeps the accounts, and what is dropped with a queue stays in the shared counter. -/
theorem step_inv (hs : s.Inv) (h : step label s = some s') :
    s'.Inv ∧ s'.globalLag - s'.held = s.globalLag - s.held + dropped label s := by
  rcases label with _ | ⟨i, label⟩
  · cases h
    have hheld : held { s with sinks := s.sinks ++ [{}] } = s.held := by
      simp only [held, map_append, sum_append, map_singleton, sum_singleton]
      rfl
    refine ⟨⟨fun sink hsink => ?_, hheld.le.trans hs.held_le⟩, ?_⟩
    · rcases mem_append.1 hsink with hsink | hsink
      · exact hs.sinks sink hsink
      · obtain rfl := mem_singleton.1 hsink
        exact ⟨le_rfl, fun _ => rfl, fun _ => rfl⟩
    · rw [hheld]
      rfl
  · simp only [step] at h
    obtain ⟨sink, hget, h⟩ := bind_eq_some_iff.1 h
    obtain ⟨⟨sink', raised, lowered⟩, hact, rfl⟩ := map_eq_some_iff.1 h
    have hmoves := SubscriberSink.act_moves hact
    have hheld := held_set hget sink' (s.globalLag + raised - lowered)
    have hpart : sink.globalBytes ≤ s.held := SubscriberSink.le_sum_map _ hget
    have hlag := hs.held_le
    have hglobal := hmoves.global
    have hlowered := hmoves.lowered_le
    refine ⟨⟨fun other hother => ?_, ?_⟩, ?_⟩
    · rcases mem_or_eq_of_mem_set hother with hmem | rfl
      · exact hs.sinks other hmem
      · exact (hs.sinks sink (mem_of_getElem? hget)).moves hmoves
    · dsimp only
      omega
    · simp only [dropped, hget, map_some, getD_some]
      omega

theorem noUnderflow_of_inv (hs : s.Inv) (label : BacklogLabel) : NoUnderflow label s := by
  rcases label with _ | ⟨i, label⟩
  · trivial
  · intro sink sink' raised lowered hget hact
    have hmoves := SubscriberSink.act_moves hact
    have hpart : sink.globalBytes ≤ s.held := SubscriberSink.le_sum_map _ hget
    have hlag := hs.held_le
    have hlowered := hmoves.lowered_le
    exact ⟨hmoves.loweredBy_le.trans (hs.sinks sink (mem_of_getElem? hget)).le, by omega⟩

theorem inv_start : ({} : Backlog).Inv :=
  ⟨fun _ hsink => absurd hsink not_mem_nil, le_rfl⟩

theorem held_of_gone (hs : s.Inv)
    (hgone : ∀ sink ∈ s.sinks, sink.writer = .gone ∧ sink.sends = []) : s.held = 0 := by
  refine sum_eq_zero fun n hn => ?_
  obtain ⟨sink, hsink, rfl⟩ := List.mem_map.1 hn
  obtain ⟨hwriter, hsends⟩ := hgone sink hsink
  rw [SubscriberSink.globalBytes, (hs.sinks sink hsink).gone hwriter, hsends, hwriter]
  rfl

/-- In every run, the counter of each client that has a receiver is what it stands for, the shared
counter is what all clients have waiting and what was in a queue when its receiver was dropped, and
no counter underflows. -/
theorem accounted_of_run {labels : List BacklogLabel} {s : Backlog}
    (hrun : StepSystem.run step labels {} = some s) :
    (∀ sink ∈ s.sinks, sink.writer ≠ .gone → sink.bytesInFlight = sink.clientBytes) ∧
      s.globalLag = s.held + StepSystem.total step dropped labels {} ∧
      ((∀ sink ∈ s.sinks, sink.writer = .gone ∧ sink.sends = []) →
        s.globalLag = StepSystem.total step dropped labels {}) ∧
      StepSystem.Along step NoUnderflow labels {} := by
  have hall : StepSystem.Along step (fun _ _ => True) labels {} :=
    StepSystem.Along.of_labels fun _ _ _ => trivial
  obtain ⟨hs, htotal⟩ := StepSystem.balance_of_along (I := Inv)
    (fun s => s.globalLag - s.held) (fun _ _ _ _ hs h => step_inv hs h) inv_start hall hrun
  have hlag : s.globalLag = s.held + StepSystem.total step dropped labels {} := by
    have hle := hs.held_le
    have hrest : s.globalLag - s.held = StepSystem.total step dropped labels {} :=
      htotal.trans (Nat.zero_add _)
    omega
  refine ⟨fun sink hsink => (hs.sinks sink hsink).eq, hlag, fun hgone => ?_, ?_⟩
  · rw [hlag, held_of_gone hs hgone, Nat.zero_add]
  · exact StepSystem.along_of_invariant (fun label _ hs => noUnderflow_of_inv hs label)
      (fun _ _ _ hs h => (step_inv hs h).1) inv_start

namespace Sample

/-- A thread puts a message into the queue of the only client. -/
def enqueue (msg : DaemonMessage) : List BacklogLabel :=
  [.sink 0 (.addGlobal msg), .sink 0 (.addClient 0), .sink 0 (.send 0)]

/-- A client is told that it is evicted; another message comes after its writer thread has looked
for the last time. -/
def straggler : List BacklogLabel :=
  [BacklogLabel.register, .sink 0 .startWriter] ++ enqueue .evicted ++
    [BacklogLabel.sink 0 .take, .sink 0 (.written true), .sink 0 .settle, .sink 0 .leave] ++ enqueue .pong ++
    [BacklogLabel.sink 0 .exit]

/-- The bytes of the message stay in the shared counter. -/
theorem not_accounted_straggler : ∃ s, StepSystem.run step straggler {} = some s ∧
    (∀ sink ∈ s.sinks, sink.writer = .gone ∧ sink.queue = [] ∧ sink.sends = []) ∧
    s.globalLag ≠ 0 := by
  refine ⟨_, rfl, ?_, ?_⟩ <;> decide

theorem accounted_straggler : ∃ s, StepSystem.run step straggler {} = some s ∧
    s.globalLag = StepSystem.total step dropped straggler {} := by
  obtain ⟨s, hrun, hgone, -⟩ : ∃ s, StepSystem.run step straggler {} = some s ∧
      (∀ sink ∈ s.sinks, sink.writer = .gone ∧ sink.sends = []) ∧ True :=
    ⟨_, rfl, by decide, trivial⟩
  exact ⟨s, hrun, (accounted_of_run hrun).2.2.1 hgone⟩

end Sample

end Backlog

end Choreo
