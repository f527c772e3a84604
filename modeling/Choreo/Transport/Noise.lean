import Choreo.Library.Records
import Choreo.Proto
import Mathlib.Algebra.Group.Nat.Defs

/-!
# The encrypted transport

`NoiseStream` of `choreo-transport/src/noise.rs`, one direction of a connection. A message is cut
into fragments; the plaintext of a fragment begins with a byte that says whether more fragments of
the message follow; the ciphertext of a fragment is written behind its length, which nothing
authenticates. The receiver puts the fragments together again.

The cipher is ideal: its two ends count the fragments, and a ciphertext is opened under a count only
if it is the one that the peer sealed under that count. Whoever delivers the bytes to the receiver
may deliver any bytes.
-/

namespace Choreo

open List

/-! ### Constants -/

/-- The length of an authentication tag. -/
def gcmTagLen : ℕ := 16

def fragmentHeaderLen : ℕ := 1

/-- The largest payload of a fragment. -/
def maxPlaintextChunk : ℕ := 65535 - gcmTagLen - fragmentHeaderLen

/-- The bit of a header that says that more fragments follow. -/
def fragmentContinuation : UInt8 := 0x01

/-- The largest message. -/
def maxFrameSize : ℕ := 32 * 1024 * 1024

inductive TransportError
  | noise
  | invalidFragment (message : String)
  | connectionClosed
deriving DecidableEq, Repr

/-! ### The ideal cipher -/

/-- The sealing function of one direction: a count and a plaintext give a ciphertext, which is longer
by the tag. -/
structure Aead where
  encrypt : ℕ → Bytes → Bytes
  length_encrypt : ∀ count plaintext,
    (encrypt count plaintext).length = plaintext.length + gcmTagLen

/-- What a direction has sealed so far, as plaintexts with their ciphertexts; the count is the number
of entries. -/
abbrev Sealed := List (Bytes × Bytes)

/-- Opens a ciphertext under a count: it has to be the one that was sealed under that count. -/
def Sealed.readMessage (s : Sealed) (count : ℕ) (ciphertext : Bytes) : Option Bytes :=
  match s[count]? with
  | none => none
  | some entry => if entry.2 = ciphertext then some entry.1 else none

/-! ### Sending -/

/-- A number as four bytes, the highest first. -/
def toBeBytes (n : ℕ) : Bytes :=
  [UInt8.ofNat (n / 2 ^ 24), UInt8.ofNat (n / 2 ^ 16), UInt8.ofNat (n / 2 ^ 8), UInt8.ofNat n]

/-- The number that bytes stand for, the highest first. -/
def fromBeBytes (bytes : Bytes) : ℕ := bytes.foldl (fun n byte => n * 256 + byte.toNat) 0

/-- The chunks of a list, all but the last of length `size`, looked for in at most `rounds` rounds.
-/
def chunksWithin {α : Type*} (size : ℕ) : ℕ → List α → List (List α)
  | 0, _ => []
  | rounds + 1, l =>
    match l with
    | [] => []
    | a :: l => (a :: l).take size :: chunksWithin size rounds ((a :: l).drop size)

def chunks {α : Type*} (size : ℕ) (l : List α) : List (List α) := chunksWithin size l.length l

/-- The sending end: what it has sealed and the bytes it has written. -/
structure NoiseSender where
  sealed : Sealed := []
  wire : Bytes := []

namespace NoiseSender

variable (aead : Aead)

def writeFragment (s : NoiseSender) (fragment : Bytes) : NoiseSender :=
  let ciphertext := aead.encrypt s.sealed.length fragment
  { sealed := s.sealed ++ [(fragment, ciphertext)]
    wire := s.wire ++ (toBeBytes ciphertext.length ++ ciphertext) }

/-- The loop over the chunks of a message, with the number of bytes that remain. -/
def sendChunks (s : NoiseSender) (remaining : ℕ) : List Bytes → NoiseSender
  | [] => s
  | chunk :: chunks =>
    let more := remaining > chunk.length
    sendChunks (s.writeFragment aead ((if more then fragmentContinuation else 0) :: chunk))
      (remaining - chunk.length) chunks

/-- Sends a message. An empty message is one fragment without payload. -/
def sendMessage (s : NoiseSender) (plaintext : Bytes) : Except TransportError NoiseSender :=
  if plaintext.length > maxFrameSize then
    .error (.invalidFragment s!"outgoing message exceeds the {maxFrameSize}-byte limit")
  else if plaintext = [] then .ok (s.writeFragment aead [0])
  else .ok (s.sendChunks aead plaintext.length (chunks maxPlaintextChunk plaintext))

/-- Sends messages one after the other, and collects those for which this succeeds. -/
def sendAll (s : NoiseSender) : List Bytes → NoiseSender × List Bytes
  | [] => (s, [])
  | message :: messages =>
    match s.sendMessage aead message with
    | .error _ => sendAll s messages
    | .ok s => ((sendAll s messages).1, message :: (sendAll s messages).2)

end NoiseSender

/-! ### Receiving -/

/-- The receiving end: its count and the bytes that are delivered to it. -/
structure NoiseReceiver where
  count : ℕ := 0
  input : Bytes

/-- Reads an exact number of bytes. -/
def readExact (n : ℕ) (input : Bytes) : Except TransportError (Bytes × Bytes) :=
  if input.length < n then .error .connectionClosed else .ok (input.take n, input.drop n)

/-- Whether the header of a fragment says that more fragments follow. -/
def continues (fragment : Bytes) : Bool := fragment.headD 0 &&& fragmentContinuation != 0

namespace NoiseReceiver

/-- The loop over the fragments of a message, with the plaintext so far. -/
def recvLoop (sealed : Sealed) :
    ℕ → Bytes → NoiseReceiver → Except TransportError (Bytes × NoiseReceiver)
  | 0, _, _ => .error .connectionClosed
  | fuel + 1, plaintext, r =>
    match readExact 4 r.input with
    | .error error => .error error
    | .ok (lenBuf, input) =>
      let ctLen := fromBeBytes lenBuf
      if ctLen > maxPlaintextChunk + fragmentHeaderLen + gcmTagLen then
        let cap := maxPlaintextChunk + fragmentHeaderLen + gcmTagLen
        .error (.invalidFragment
          s!"fragment ciphertext length {ctLen} exceeds the {cap}-byte Noise cap")
      else if plaintext.length + (ctLen - (gcmTagLen + fragmentHeaderLen)) > maxFrameSize then
        .error (.invalidFragment s!"reassembled message exceeds the {maxFrameSize}-byte limit")
      else
        match readExact ctLen input with
        | .error error => .error error
        | .ok (ciphertext, input) =>
          match sealed.readMessage r.count ciphertext with
          | none => .error .noise
          | some fragment =>
            if fragment = [] then
              .error (.invalidFragment "fragment carries no authenticated continuation header")
            else if continues fragment then
              recvLoop sealed fuel (plaintext ++ fragment.drop fragmentHeaderLen)
                { count := r.count + 1, input := input }
            else
              .ok (plaintext ++ fragment.drop fragmentHeaderLen,
                { count := r.count + 1, input := input })

/-- Receives a message; every round of the loop consumes bytes. -/
def recvMessage (sealed : Sealed) (r : NoiseReceiver) :
    Except TransportError (Bytes × NoiseReceiver) :=
  recvLoop sealed (r.input.length + 1) [] r

/-- The messages that a number of calls return before the first error. -/
def received (sealed : Sealed) : ℕ → NoiseReceiver → List Bytes
  | 0, _ => []
  | n + 1, r =>
    match r.recvMessage sealed with
    | .error _ => []
    | .ok (message, r) => message :: received sealed n r

end NoiseReceiver

/-! ### Fragments of a message -/

theorem fromBeBytes_toBeBytes {n : ℕ} (h : n < 2 ^ 32) : fromBeBytes (toBeBytes n) = n := by
  simp only [fromBeBytes, toBeBytes, foldl_cons, foldl_nil, UInt8.toNat_ofNat']
  omega

theorem length_toBeBytes (n : ℕ) : (toBeBytes n).length = 4 := rfl

section Chunks

variable {α : Type*} {size : ℕ}

theorem chunksWithin_spec (hsize : 0 < size) (rounds : ℕ) : ∀ l : List α, l.length ≤ rounds →
    (chunksWithin size rounds l).flatten = l ∧
      ∀ chunk ∈ chunksWithin size rounds l, chunk ≠ [] ∧ chunk.length ≤ size := by
  induction rounds with
  | zero =>
    intro l hl
    rw [eq_nil_of_length_eq_zero (Nat.le_zero.1 hl)]
    simp [chunksWithin]
  | succ rounds ih =>
    rintro (_ | ⟨a, l⟩) hl
    · simp [chunksWithin]
    · have hdrop : ((a :: l).drop size).length ≤ rounds := by
        rw [length_drop]
        rw [length_cons] at hl ⊢
        omega
      obtain ⟨hflat, hmem⟩ := ih _ hdrop
      rw [chunksWithin]
      refine ⟨by rw [flatten_cons, hflat, take_append_drop], ?_⟩
      rintro chunk (_ | ⟨_, hchunk⟩)
      · refine ⟨?_, length_take_le _ _⟩
        simpa [take_eq_nil_iff] using hsize.ne'
      · exact hmem chunk hchunk

theorem flatten_chunks (hsize : 0 < size) (l : List α) : (chunks size l).flatten = l :=
  (chunksWithin_spec hsize _ l le_rfl).1

theorem chunks_mem (hsize : 0 < size) {l chunk : List α} (h : chunk ∈ chunks size l) :
    chunk ≠ [] ∧ chunk.length ≤ size :=
  (chunksWithin_spec hsize _ l le_rfl).2 chunk h

end Chunks

def chunkFragments (remaining : ℕ) : List Bytes → List Bytes
  | [] => []
  | chunk :: chunks =>
    ((if remaining > chunk.length then fragmentContinuation else 0) :: chunk) ::
      chunkFragments (remaining - chunk.length) chunks

variable (plaintext : Bytes)

def fragments : List Bytes :=
  if plaintext = [] then [[0]]
  else chunkFragments plaintext.length (chunks maxPlaintextChunk plaintext)

/-- The payloads of fragments, put together. -/
def payload (fragments : List Bytes) : Bytes := (fragments.map (List.drop 1)).flatten

theorem payload_chunkFragments (chunks : List Bytes) : ∀ remaining,
    payload (chunkFragments remaining chunks) = chunks.flatten := by
  induction chunks with
  | nil => exact fun _ => rfl
  | cons chunk chunks ih =>
    intro remaining
    rw [chunkFragments, flatten_cons, ← ih (remaining - chunk.length)]
    simp [payload]

/-- A fragment continues exactly when bytes remain. -/
theorem record_chunkFragments (chunks : List Bytes) (hchunks : ∀ chunk ∈ chunks, chunk ≠ [])
    (hne : chunks ≠ []) :
    Record continues (chunkFragments chunks.flatten.length chunks) := by
  induction chunks with
  | nil => exact absurd rfl hne
  | cons chunk chunks ih =>
    rw [flatten_cons, length_append, chunkFragments, Nat.add_sub_cancel_left]
    by_cases hlast : chunks = []
    · subst hlast
      exact .last (by simp [continues])
    · obtain ⟨next, rest, rfl⟩ := exists_cons_of_ne_nil hlast
      have hpos : 0 < (next :: rest).flatten.length := by
        have hnext := length_pos_iff.2 (hchunks next (by simp))
        rw [flatten_cons, length_append]
        omega
      refine .cons ?_ (ih (fun c hc => hchunks c (mem_cons_of_mem _ hc)) hlast)
      rw [if_pos (by omega), continues, headD_cons]
      decide

theorem maxPlaintextChunk_pos : 0 < maxPlaintextChunk := by decide

theorem payload_fragments : payload (fragments plaintext) = plaintext := by
  rw [fragments]
  split_ifs with h
  · rw [h]
    rfl
  · rw [payload_chunkFragments, flatten_chunks maxPlaintextChunk_pos]

theorem record_fragments : Record continues (fragments plaintext) := by
  rw [fragments]
  split_ifs with h
  · exact .last rfl
  · have hflat := flatten_chunks maxPlaintextChunk_pos plaintext
    have hrecord := record_chunkFragments (chunks maxPlaintextChunk plaintext)
      (fun chunk hc => (chunks_mem maxPlaintextChunk_pos hc).1) ?_
    · rwa [hflat] at hrecord
    · rintro hnil
      rw [hnil] at hflat
      exact h hflat.symm

theorem chunkFragments_mem (size : ℕ) (chunks : List Bytes)
    (h : ∀ chunk ∈ chunks, chunk.length ≤ size) : ∀ remaining,
      ∀ fragment ∈ chunkFragments remaining chunks,
        fragment ≠ [] ∧ fragment.length ≤ size + fragmentHeaderLen := by
  induction chunks with
  | nil => exact fun _ _ h => absurd h not_mem_nil
  | cons chunk chunks ih =>
    rintro remaining fragment (_ | ⟨_, hfragment⟩)
    · refine ⟨cons_ne_nil _ _, ?_⟩
      rw [length_cons]
      exact Nat.add_le_add_right (h chunk (by simp)) 1
    · exact ih (fun c hc => h c (mem_cons_of_mem _ hc)) _ fragment hfragment

theorem fragments_mem {plaintext fragment : Bytes} (h : fragment ∈ fragments plaintext) :
    fragment ≠ [] ∧ fragment.length ≤ maxPlaintextChunk + fragmentHeaderLen := by
  rw [fragments] at h
  split_ifs at h with hnil
  · rw [mem_singleton.1 h]
    exact ⟨by simp, by decide⟩
  · exact chunkFragments_mem _ _ (fun chunk hc => (chunks_mem maxPlaintextChunk_pos hc).2) _ _ h

/-! ### What was sealed and written -/

/-- A ciphertext behind its length. -/
def wireFrame (entry : Bytes × Bytes) : Bytes := toBeBytes entry.2.length ++ entry.2

namespace NoiseSender

variable (aead : Aead)

/-- What a sender has sealed for the fragments of some messages, and written. -/
structure Sent (s : NoiseSender) (messages : List Bytes) : Prop where
  plaintexts : s.sealed.map Prod.fst = messages.flatMap fragments
  wire : s.wire = s.sealed.flatMap wireFrame
  length : ∀ entry ∈ s.sealed, entry.2.length = entry.1.length + gcmTagLen

/-- Writes fragments one after the other. -/
theorem sendChunks_eq (chunks : List Bytes) : ∀ (s : NoiseSender) (remaining : ℕ),
    s.sendChunks aead remaining chunks =
      (chunkFragments remaining chunks).foldl (writeFragment aead) s := by
  induction chunks with
  | nil => exact fun _ _ => rfl
  | cons chunk chunks ih => exact fun s remaining => ih _ _

theorem foldl_writeFragment (list : List Bytes) : ∀ s : NoiseSender,
    s.wire = s.sealed.flatMap wireFrame →
    (∀ entry ∈ s.sealed, entry.2.length = entry.1.length + gcmTagLen) →
    (list.foldl (writeFragment aead) s).sealed.map Prod.fst = s.sealed.map Prod.fst ++ list ∧
      (list.foldl (writeFragment aead) s).wire =
        (list.foldl (writeFragment aead) s).sealed.flatMap wireFrame ∧
      ∀ entry ∈ (list.foldl (writeFragment aead) s).sealed,
        entry.2.length = entry.1.length + gcmTagLen := by
  induction list with
  | nil => exact fun s hwire hlength => ⟨by simp, hwire, hlength⟩
  | cons fragment list ih =>
    intro s hwire hlength
    have hwire' : (s.writeFragment aead fragment).wire =
        (s.writeFragment aead fragment).sealed.flatMap wireFrame := by
      simp [writeFragment, wireFrame, hwire]
    have hlength' : ∀ entry ∈ (s.writeFragment aead fragment).sealed,
        entry.2.length = entry.1.length + gcmTagLen := by
      intro entry hentry
      obtain hentry | hentry := mem_append.1 hentry
      · exact hlength entry hentry
      · rw [mem_singleton.1 hentry]
        exact aead.length_encrypt _ _
    obtain ⟨hfst, hrest⟩ := ih _ hwire' hlength'
    refine ⟨?_, hrest⟩
    rw [foldl_cons, hfst]
    simp [writeFragment]

theorem sendMessage_eq (s : NoiseSender) {message : Bytes} (h : message.length ≤ maxFrameSize) :
    s.sendMessage aead message = .ok ((fragments message).foldl (writeFragment aead) s) := by
  rw [sendMessage, if_neg (by omega), fragments]
  split_ifs
  · rfl
  · rw [sendChunks_eq]

theorem sendMessage_error (s : NoiseSender) {message : Bytes} (h : maxFrameSize < message.length) :
    ∃ error, s.sendMessage aead message = .error error :=
  ⟨_, if_pos h⟩

theorem sent_sendMessage {s : NoiseSender} {messages : List Bytes} (h : s.Sent messages)
    (message : Bytes) :
    Sent ((fragments message).foldl (writeFragment aead) s) (messages ++ [message]) := by
  obtain ⟨hfst, hwire, hlength⟩ := foldl_writeFragment aead (fragments message) s h.wire h.length
  exact ⟨by rw [hfst, h.plaintexts]; simp, hwire, hlength⟩

/-- All messages that are not too long are sent, in their order. -/
theorem sendAll_spec (messages : List Bytes) : ∀ (s : NoiseSender) (earlier : List Bytes),
    s.Sent earlier →
    (s.sendAll aead messages).2 = messages.filter (fun m => m.length ≤ maxFrameSize) ∧
      (s.sendAll aead messages).1.Sent (earlier ++ (s.sendAll aead messages).2) := by
  induction messages with
  | nil => exact fun s earlier h => ⟨rfl, by simpa [sendAll] using h⟩
  | cons message messages ih =>
    intro s earlier h
    by_cases hlen : message.length ≤ maxFrameSize
    · obtain ⟨hsent, hrest⟩ := ih _ _ (sent_sendMessage aead h message)
      simp only [sendAll, sendMessage_eq aead s hlen]
      refine ⟨?_, ?_⟩
      · rw [hsent, filter_cons_of_pos (by simpa using hlen)]
      · rwa [append_assoc, singleton_append] at hrest
    · obtain ⟨error, herror⟩ := sendMessage_error aead s (Nat.lt_of_not_le hlen)
      simp only [sendAll, herror]
      rw [filter_cons_of_neg (by simpa using hlen)]
      exact ih s earlier h

end NoiseSender

/-! ### What any bytes can yield -/

namespace NoiseReceiver

variable {sealed : Sealed}

theorem readMessage_eq_some {count : ℕ} {ciphertext fragment : Bytes}
    (h : sealed.readMessage count ciphertext = some fragment) :
    sealed[count]? = some (fragment, ciphertext) := by
  rw [Sealed.readMessage] at h
  split at h
  · cases h
  · rename_i entry hentry
    split_ifs at h with hct
    · cases h
      rw [hentry, ← hct]

/-- A round of the loop that does not fail opens the fragment that was sealed under the count. -/
theorem recvLoop_succ {fuel : ℕ} {plaintext message : Bytes} {r r' : NoiseReceiver}
    (h : recvLoop sealed (fuel + 1) plaintext r = .ok (message, r')) :
    ∃ fragment ciphertext input, sealed[r.count]? = some (fragment, ciphertext) ∧
      ((continues fragment = true ∧
          recvLoop sealed fuel (plaintext ++ fragment.drop 1) ⟨r.count + 1, input⟩ =
            .ok (message, r')) ∨
        (continues fragment = false ∧ message = plaintext ++ fragment.drop 1 ∧
          r'.count = r.count + 1)) := by
  rw [recvLoop] at h
  split at h
  · cases h
  · simp only at h
    split_ifs at h
    split at h
    · cases h
    · split at h
      · cases h
      · rename_i fragment hread
        split_ifs at h with hnil hmore
        · exact ⟨fragment, _, _, readMessage_eq_some hread, Or.inl ⟨hmore, h⟩⟩
        · refine ⟨fragment, _, [], readMessage_eq_some hread, Or.inr ⟨by simpa using hmore, ?_⟩⟩
          cases h
          exact ⟨rfl, rfl⟩

/-- What the loop returns is the payload of a record of fragments that were sealed, beginning with
the one whose turn it is. -/
theorem recvLoop_sound (fuel : ℕ) : ∀ (plaintext message : Bytes) (r r' : NoiseReceiver),
    recvLoop sealed fuel plaintext r = .ok (message, r') →
      ∃ list, Record continues list ∧ message = plaintext ++ payload list ∧
        (sealed.map Prod.fst).drop r.count = list ++ (sealed.map Prod.fst).drop r'.count := by
  induction fuel with
  | zero => exact fun _ _ _ _ h => nomatch h
  | succ fuel ih =>
    intro plaintext message r r' h
    obtain ⟨fragment, ciphertext, input, hentry, hnext⟩ := recvLoop_succ h
    have hdrop : (sealed.map Prod.fst).drop r.count =
        fragment :: (sealed.map Prod.fst).drop (r.count + 1) := by
      rw [List.drop_eq_getElem?_toList_append, List.getElem?_map, hentry]
      rfl
    obtain ⟨hmore, hloop⟩ | ⟨hmore, rfl, hcount⟩ := hnext
    · obtain ⟨list, hlist, rfl, hrest⟩ := ih _ _ _ _ hloop
      refine ⟨fragment :: list, .cons hmore hlist, by simp [payload], ?_⟩
      rw [hdrop, cons_append, ← hrest]
    · refine ⟨[fragment], .last hmore, by simp [payload], ?_⟩
      rw [hdrop, hcount, singleton_append]

/-- The messages received from any bytes are the first ones of those whose fragments were sealed. -/
theorem received_prefix (n : ℕ) : ∀ (r : NoiseReceiver) (messages : List Bytes),
    (sealed.map Prod.fst).drop r.count = messages.flatMap fragments →
      received sealed n r <+: messages := by
  induction n with
  | zero => exact fun _ _ _ => nil_prefix
  | succ n ih =>
    intro r messages hleft
    rw [received]
    split
    · exact nil_prefix
    · rename_i message r' hrecv
      obtain ⟨list, hlist, hmessage, hdrop⟩ := recvLoop_sound _ _ _ _ _ hrecv
      rw [hleft] at hdrop
      cases messages with
      | nil => exact absurd (append_eq_nil_iff.1 hdrop.symm).1 hlist.ne_nil
      | cons first messages =>
        rw [flatMap_cons] at hdrop
        obtain ⟨hfirst, hrest⟩ := (record_fragments first).append_inj hlist hdrop
        rw [← hfirst, payload_fragments, nil_append] at hmessage
        rw [hmessage]
        exact cons_prefix_cons.2 ⟨rfl, ih r' messages hrest.symm⟩

/-! ### What the bytes that were written yield -/

theorem readExact_append {n : ℕ} {bytes : Bytes} (h : bytes.length = n) (rest : Bytes) :
    readExact n (bytes ++ rest) = .ok (bytes, rest) := by
  subst h
  simp [readExact]

/-- A round of the loop on a frame as it was written. -/
theorem recvLoop_wireFrame {fuel count : ℕ} {plaintext fragment ciphertext rest : Bytes}
    (hentry : sealed[count]? = some (fragment, ciphertext))
    (hlength : ciphertext.length = fragment.length + gcmTagLen) (hne : fragment ≠ [])
    (hfits : fragment.length ≤ maxPlaintextChunk + fragmentHeaderLen)
    (hmax : plaintext.length + (fragment.drop 1).length ≤ maxFrameSize) :
    recvLoop sealed (fuel + 1) plaintext ⟨count, wireFrame (fragment, ciphertext) ++ rest⟩ =
      if continues fragment then
        recvLoop sealed fuel (plaintext ++ fragment.drop 1) ⟨count + 1, rest⟩
      else .ok (plaintext ++ fragment.drop 1, ⟨count + 1, rest⟩) := by
  have hcap : fragment.length + gcmTagLen ≤ 65535 :=
    le_trans (Nat.add_le_add_right hfits gcmTagLen) (by decide)
  have hnumber : fromBeBytes (toBeBytes ciphertext.length) = ciphertext.length := by
    refine fromBeBytes_toBeBytes ?_
    rw [hlength]
    omega
  have hlen : ¬ ciphertext.length > maxPlaintextChunk + fragmentHeaderLen + gcmTagLen := by
    rw [hlength]
    omega
  have hsum : ¬ plaintext.length + (ciphertext.length - (gcmTagLen + fragmentHeaderLen)) >
      maxFrameSize := by
    rw [length_drop] at hmax
    rw [hlength, fragmentHeaderLen]
    omega
  have hopen : sealed.readMessage count ciphertext = some fragment := by
    rw [Sealed.readMessage, hentry]
    exact if_pos rfl
  rw [recvLoop, wireFrame, append_assoc]
  simp only [readExact_append (length_toBeBytes _), hnumber, if_neg hlen, if_neg hsum,
    readExact_append rfl, hopen, if_neg hne]
  rfl

theorem recvLoop_complete (later : Sealed) (entries : Sealed) :
    ∀ (fuel count : ℕ) (plaintext : Bytes), Record continues (entries.map Prod.fst) →
    sealed.drop count = entries ++ later → entries.length < fuel →
    (∀ entry ∈ entries, entry.2.length = entry.1.length + gcmTagLen ∧ entry.1 ≠ [] ∧
      entry.1.length ≤ maxPlaintextChunk + fragmentHeaderLen) →
    plaintext.length + (payload (entries.map Prod.fst)).length ≤ maxFrameSize →
    recvLoop sealed fuel plaintext ⟨count, (entries ++ later).flatMap wireFrame⟩ =
      .ok (plaintext ++ payload (entries.map Prod.fst),
        ⟨count + entries.length, later.flatMap wireFrame⟩) := by
  induction entries with
  | nil => exact fun _ _ _ hrecord => absurd rfl hrecord.ne_nil
  | cons entry entries ih =>
    rintro (_ | fuel) count plaintext hrecord hdrop hfuel hentries hmax
    · exact absurd hfuel (Nat.not_lt_zero _)
    · have hentry : sealed[count]? = some entry := by
        rw [← List.head?_drop, hdrop]
        rfl
      have hdrop' : sealed.drop (count + 1) = entries ++ later := by
        rw [← List.drop_drop, hdrop]
        rfl
      have hpayload : payload ((entry :: entries).map Prod.fst) =
          entry.1.drop 1 ++ payload (entries.map Prod.fst) := by
        simp [payload]
      rw [hpayload, length_append] at hmax
      obtain ⟨hlength, hne, hfits⟩ := hentries entry (by simp)
      rw [cons_append, flatMap_cons,
        recvLoop_wireFrame hentry hlength hne hfits (by omega), hpayload]
      rw [map_cons] at hrecord
      generalize hlist : entries.map Prod.fst = list at hrecord
      cases hrecord with
      | last hmore =>
        rw [map_eq_nil_iff.1 hlist, if_neg (by simp [hmore])]
        simp [payload]
      | cons hmore hrest =>
        have hloop := ih fuel (count + 1) (plaintext ++ entry.1.drop 1) (hlist ▸ hrest) hdrop'
          (Nat.lt_of_succ_lt_succ hfuel) (fun e he => hentries e (mem_cons_of_mem _ he))
          (by rw [length_append]; omega)
        rw [if_pos hmore, hloop, append_assoc, hlist, length_cons]
        congr 3
        omega

theorem length_le_flatMap_wireFrame (entries : Sealed) :
    entries.length ≤ (entries.flatMap wireFrame).length := by
  induction entries with
  | nil => exact le_rfl
  | cons entry entries ih =>
    rw [flatMap_cons, length_append, wireFrame, length_append, length_toBeBytes,
      length_cons]
    omega

/-- The bytes that were written yield every message. -/
theorem received_complete (extra : ℕ) (messages : List Bytes)
    (hlength : ∀ entry ∈ sealed, entry.2.length = entry.1.length + gcmTagLen)
    (hmax : ∀ message ∈ messages, message.length ≤ maxFrameSize) : ∀ count : ℕ,
    (sealed.map Prod.fst).drop count = messages.flatMap fragments →
      received sealed (messages.length + extra) ⟨count, (sealed.drop count).flatMap wireFrame⟩ =
        messages := by
  induction messages with
  | nil =>
    intro count hleft
    have hpre : received sealed (0 + extra) ⟨count, (sealed.drop count).flatMap wireFrame⟩ <+:
        [] := received_prefix _ _ _ hleft
    exact prefix_nil.1 hpre
  | cons message messages ih =>
    intro count hleft
    rw [flatMap_cons, ← map_drop] at hleft
    obtain ⟨entries, later, hdrop, hentries, hlater⟩ := map_eq_append_iff.1 hleft
    have hmem : ∀ entry ∈ entries, entry.2.length = entry.1.length + gcmTagLen ∧ entry.1 ≠ [] ∧
        entry.1.length ≤ maxPlaintextChunk + fragmentHeaderLen := by
      intro entry he
      have hfragment : entry.1 ∈ fragments message := hentries ▸ mem_map_of_mem he
      have hsealed : entry ∈ sealed := mem_of_mem_drop (hdrop ▸ mem_append_left _ he)
      exact ⟨hlength entry hsealed, fragments_mem hfragment⟩
    have hfuel : entries.length < ((entries ++ later).flatMap wireFrame).length + 1 := by
      have := length_le_flatMap_wireFrame (entries ++ later)
      rw [length_append] at this
      omega
    have hloop := recvLoop_complete later entries _ count [] (hentries ▸ record_fragments message)
      hdrop hfuel hmem (by
        rw [hentries, payload_fragments, length_nil, Nat.zero_add]
        exact hmax message (by simp))
    rw [hentries, payload_fragments, nil_append] at hloop
    have hnext : sealed.drop (count + entries.length) = later := by
      rw [← List.drop_drop, hdrop, drop_left]
    have hrest := ih (fun m hm => hmax m (mem_cons_of_mem _ hm)) (count + entries.length)
      (by rw [← map_drop, hnext, hlater])
    rw [hnext] at hrest
    rw [length_cons, Nat.add_right_comm, received, recvMessage, hdrop]
    simp only [hloop, hrest]

end NoiseReceiver

/-! ### The transport -/

/-- Messages that are not too long are all sent. Whatever bytes are delivered, the messages received
before the first error are the first ones of those sent; the bytes that were written yield all of
them; and no message received is longer than the limit. -/
theorem transport_integrity (aead : Aead) (messages : List Bytes) :
    (NoiseSender.sendAll aead {} messages).2 =
        messages.filter (fun m => m.length ≤ maxFrameSize) ∧
      (∀ (input : Bytes) (n : ℕ),
        NoiseReceiver.received (NoiseSender.sendAll aead {} messages).1.sealed n { input := input } <+:
            (NoiseSender.sendAll aead {} messages).2 ∧
          ∀ m ∈ NoiseReceiver.received (NoiseSender.sendAll aead {} messages).1.sealed n
            { input := input }, m.length ≤ maxFrameSize) ∧
      ∀ extra : ℕ,
        NoiseReceiver.received (NoiseSender.sendAll aead {} messages).1.sealed
            ((NoiseSender.sendAll aead {} messages).2.length + extra)
            { input := (NoiseSender.sendAll aead {} messages).1.wire } =
          (NoiseSender.sendAll aead {} messages).2 := by
  obtain ⟨hsent, hstate⟩ := NoiseSender.sendAll_spec aead messages {} []
    ⟨rfl, rfl, fun _ h => absurd h not_mem_nil⟩
  rw [nil_append] at hstate
  have hmax : ∀ m ∈ (NoiseSender.sendAll aead {} messages).2, m.length ≤ maxFrameSize := by
    intro m hm
    rw [hsent] at hm
    simpa using (mem_filter.1 hm).2
  refine ⟨hsent, fun input n => ?_, fun extra => ?_⟩
  · have hpre := NoiseReceiver.received_prefix n { input := input } _ hstate.plaintexts
    exact ⟨hpre, fun m hm => hmax m (hpre.subset hm)⟩
  · rw [hstate.wire]
    exact NoiseReceiver.received_complete extra _ hstate.length hmax 0 hstate.plaintexts

namespace Sample

/-- A cipher that writes the count 16 times behind the plaintext. -/
def aead : Aead where
  encrypt count plaintext := plaintext ++ replicate gcmTagLen (UInt8.ofNat count)
  length_encrypt := by simp

/-- A message of two fragments, an empty one, and one that fills its fragment. -/
def messages : List Bytes := [replicate 70000 1, [], replicate maxPlaintextChunk 2]

end Sample

theorem transport_integrity_threeMessages :
    NoiseReceiver.received (NoiseSender.sendAll Sample.aead {} Sample.messages).1.sealed 3
      { input := (NoiseSender.sendAll Sample.aead {} Sample.messages).1.wire } =
        Sample.messages := by
  obtain ⟨hsent, -, hall⟩ := transport_integrity Sample.aead Sample.messages
  have hmessages : (NoiseSender.sendAll Sample.aead {} Sample.messages).2 = Sample.messages := by
    rw [hsent, filter_eq_self]
    simp only [Sample.messages, forall_mem_cons, length_replicate]
    decide
  have hreceived := hall 0
  rwa [hmessages] at hreceived

end Choreo
