import Choreo.Transport.Noise
import Choreo.Wire.Framing

/-!
# Messages over the encrypted transport

A remote client sends its messages through `NoiseStream` (`choreo-transport/src/noise.rs`). Its
writer thread stops at the first message that is refused (`serve_noise_connection` of
`choreo-client-core/src/connection.rs`), the daemon's reader loop at the first error
(`choreo-daemon/src/server/connection.rs`). The messages and the transport have the same limit of
length, so the transport refuses no message that can be encoded.
-/

namespace Choreo

open List

variable {M : Type} (codec : Wire.Codec M) (aead : Aead) (sealed : Sealed)

namespace NoiseSender

/-- Sends a message; `send_daemon_message` is the same for the other direction. -/
def sendClientMessage (s : NoiseSender) (message : M) :
    Except (Wire.ProtoError ⊕ TransportError) NoiseSender :=
  match Wire.encodeInner codec message with
  | .error error => .error (.inl error)
  | .ok payload => (s.sendMessage aead payload).mapError .inr

/-- The writer thread: the messages that it sends before the first error. -/
def writeAll : List M → NoiseSender → NoiseSender × List M
  | [], s => (s, [])
  | message :: messages, s =>
    match s.sendClientMessage codec aead message with
    | .error _ => (s, [])
    | .ok s =>
      let (s, sent) := writeAll messages s
      (s, message :: sent)

end NoiseSender

namespace NoiseReceiver

/-- Receives a message; `recv_daemon_message` is the same for the other direction. -/
def recvClientMessage (r : NoiseReceiver) :
    Except (Wire.ProtoError ⊕ TransportError) (M × NoiseReceiver) :=
  match r.recvMessage sealed with
  | .error error => .error (.inr error)
  | .ok (payload, r) =>
    match Wire.decodeFrame codec payload with
    | .error error => .error (.inl error)
    | .ok message => .ok (message, r)

/-- The reader loop: the messages that a number of rounds hand over before the first error. -/
def handled : ℕ → NoiseReceiver → List M
  | 0, _ => []
  | n + 1, r =>
    match r.recvClientMessage codec sealed with
    | .error _ => []
    | .ok (message, r) => message :: handled n r

theorem handled_eq (n : ℕ) : ∀ (r : NoiseReceiver) (messages : List M),
    Forall₂ (fun m payload => Wire.encodeInner codec m = .ok payload) messages
      (received sealed n r) → handled codec sealed n r = messages := by
  induction n with
  | zero =>
    intro r messages h
    exact (forall₂_nil_right_iff.1 h).symm
  | succ n ih =>
    intro r messages h
    rw [received] at h
    rw [handled, recvClientMessage]
    rcases hrecv : r.recvMessage sealed with error | ⟨payload, r'⟩ <;> simp only [hrecv] at h ⊢
    · exact (forall₂_nil_right_iff.1 h).symm
    · obtain ⟨message, messages, hencode, hrest, rfl⟩ := forall₂_cons_right_iff.1 h
      simp only [Wire.decodeFrame_of_encodeInner hencode, ih r' messages hrest]

end NoiseReceiver

theorem NoiseSender.writeAll_spec (messages : List M) : ∀ (s : NoiseSender) (earlier : List Bytes),
    s.Sent earlier →
    (writeAll codec aead messages s).2 =
        messages.takeWhile (fun m => (Wire.encodeInner codec m).isOk) ∧
      ∃ payloads, Forall₂ (fun m payload => Wire.encodeInner codec m = .ok payload)
          (writeAll codec aead messages s).2 payloads ∧
        (∀ payload ∈ payloads, payload.length ≤ maxFrameSize) ∧
        (writeAll codec aead messages s).1.Sent (earlier ++ payloads) := by
  induction messages with
  | nil => exact fun s earlier h => ⟨rfl, [], .nil, by simp, by rwa [append_nil]⟩
  | cons message messages ih =>
    intro s earlier h
    rw [writeAll, sendClientMessage, takeWhile_cons]
    rcases hencode : Wire.encodeInner codec message with error | payload
    · exact ⟨rfl, [], .nil, by simp, by rwa [append_nil]⟩
    · have hlen : payload.length ≤ maxFrameSize := by
        rw [Wire.encodeInner] at hencode
        split at hencode
        · cases hencode
        · split_ifs at hencode with hle
          exact Except.ok.inj hencode ▸ Nat.le_of_not_lt hle
      obtain ⟨hsent, payloads, hall, hmax, hstate⟩ := ih _ _ (sent_sendMessage aead h payload)
      simp only [sendMessage_eq aead s hlen, Except.mapError]
      rw [append_assoc] at hstate
      exact ⟨congrArg (message :: ·) hsent, payload :: payloads, .cons hencode hall,
        forall_mem_cons.2 ⟨hlen, hmax⟩, hstate⟩

/-- The messages before the first one that cannot be encoded are sent. Whatever bytes are delivered,
the messages handed over before the first error are the first ones of those; and the bytes that were
written hand over all of them. -/
theorem connection_integrity (messages : List M) :
    (NoiseSender.writeAll codec aead messages {}).2 =
        messages.takeWhile (fun m => (Wire.encodeInner codec m).isOk) ∧
      (∀ (input : Bytes) (n : ℕ),
        NoiseReceiver.handled codec (NoiseSender.writeAll codec aead messages {}).1.sealed n
            { input := input } <+: (NoiseSender.writeAll codec aead messages {}).2) ∧
      ∀ extra : ℕ,
        NoiseReceiver.handled codec (NoiseSender.writeAll codec aead messages {}).1.sealed
            ((NoiseSender.writeAll codec aead messages {}).2.length + extra)
            { input := (NoiseSender.writeAll codec aead messages {}).1.wire } =
          (NoiseSender.writeAll codec aead messages {}).2 := by
  obtain ⟨hsent, payloads, hall, hmax, hstate⟩ := NoiseSender.writeAll_spec codec aead messages {} []
    ⟨rfl, rfl, fun _ h => absurd h not_mem_nil⟩
  rw [nil_append] at hstate
  refine ⟨hsent, fun input n => ?_, fun extra => ?_⟩
  · have hpre := NoiseReceiver.received_prefix n { input := input } _ hstate.plaintexts
    have hfirst := forall₂_take (NoiseReceiver.received
      (NoiseSender.writeAll codec aead messages {}).1.sealed n { input := input }).length hall
    rw [← prefix_iff_eq_take.1 hpre] at hfirst
    rw [NoiseReceiver.handled_eq codec _ n _ _ hfirst]
    exact take_prefix _ _
  · have hall' := NoiseReceiver.received_complete extra _ hstate.length hmax 0 hstate.plaintexts
    rw [drop_zero, ← hstate.wire] at hall'
    rw [hall.length_eq]
    exact NoiseReceiver.handled_eq codec _ _ _ _ (hall'.symm ▸ hall)

open Wire.Notice in
theorem connection_integrity_threeMessages :
    NoiseReceiver.handled notices (NoiseSender.writeAll notices Sample.aead [(), (), ()] {}).1.sealed
      3 { input := (NoiseSender.writeAll notices Sample.aead [(), (), ()] {}).1.wire } =
        [(), (), ()] := by
  obtain ⟨hsent, -, hall⟩ := connection_integrity notices Sample.aead [(), (), ()]
  have hmessages : (NoiseSender.writeAll notices Sample.aead [(), (), ()] {}).2 = [(), (), ()] :=
    hsent
  have hhanded := hall 0
  rwa [hmessages] at hhanded

end Choreo
