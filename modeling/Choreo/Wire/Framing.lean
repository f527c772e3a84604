import Choreo.Wire.Messages

/-!
# Frames on the wire

A frame is the length of a payload in four bytes and the payload (`choreo-proto/src/frame.rs` and
`io.rs`). The client reads frames in a loop that skips every message it cannot decode
(`run_daemon_reader` of `choreo-client-core/src/connection.rs`). Skipping is sound for a payload
that was read. A frame longer than the limit is refused after its length, so its payload is read
as frames.

The serialization package is a parameter: what it writes it reads back, and it reports how many
bytes a value took.
-/

namespace Choreo.Wire

open MessagePack List

/-! ### Numbers in four bytes -/

/-- The number that bytes stand for, the most significant first. -/
def ofBigEndian : List UInt8 → ℕ
  | [] => 0
  | b :: rest => b.toNat * 256 ^ rest.length + ofBigEndian rest

theorem ofBigEndian_bigEndian (k n : ℕ) : ofBigEndian (bigEndian k n) = n % 256 ^ k := by
  induction k with
  | zero => rw [pow_zero, Nat.mod_one]; rfl
  | succ k ih =>
    have hsplit : bigEndian (k + 1) n = UInt8.ofNat (n / 256 ^ k) :: bigEndian k n := by
      simp [bigEndian, range_succ]
    have hmod : n % (256 ^ k * 256) = n % 256 ^ k + 256 ^ k * (n / 256 ^ k % 256) := Nat.mod_mul
    rw [hsplit, ofBigEndian, length_bigEndian, ih, UInt8.toNat_ofNat', pow_succ 256 k, hmod]
    ring

/-! ### The source -/

/-- The kinds of I/O errors the reader tells apart. -/
inductive ErrorKind
  | unexpectedEof
  | connectionReset
  | other (name : String)
deriving DecidableEq, Repr

/-- The errors of the protocol layer. -/
inductive ProtoError
  | io (kind : ErrorKind)
  | codec (message : String)
  | frameTooLarge
  | trailingBytes
  | unsupportedVersion (version : UInt8)
deriving DecidableEq, Repr

/-- The serialization of messages under a version. A value that was written is read back from the
beginning of any bytes, with the number of bytes it took, and a value with a version below 128 is
written as an array of two elements with the version in one byte. -/
structure Codec (M : Type) where
  toVecNamed : UInt8 × M → Except String Bytes
  deserialize : Bytes → Except String ((UInt8 × M) × ℕ)
  deserialize_append : ∀ {value payload}, toVecNamed value = .ok payload →
    ∀ rest, deserialize (payload ++ rest) = .ok (value, payload.length)
  envelope : ∀ {version message payload}, toVecNamed (version, message) = .ok payload →
    version < 128 → ∃ body, payload = 0x92 :: version :: body

/-- The limit of a payload. -/
def maxFrameSize : ℕ := 32 * 1024 * 1024

variable {M : Type} (codec : Codec M)

/-- The payload of a message, if it is within the limit. -/
def encodeInner (message : M) : Except ProtoError Bytes :=
  match codec.toVecNamed (protocolVersion, message) with
  | .error e => .error (.codec e)
  | .ok payload => if maxFrameSize < payload.length then .error .frameTooLarge else .ok payload

def encodeFrame (message : M) : Except ProtoError Bytes :=
  match encodeInner codec message with
  | .error e => .error e
  | .ok payload =>
    if 2 ^ 32 ≤ payload.length then .error .frameTooLarge
    else .ok (bigEndian 4 payload.length ++ payload)

/-- The version of a payload that begins like an envelope of another version. -/
def mismatchedVersion : Bytes → Option UInt8
  | first :: version :: _ =>
    if first = 0x92 ∧ version ≠ protocolVersion then some version else none
  | _ => none

def decodeFrame (payload : Bytes) : Except ProtoError M :=
  match mismatchedVersion payload with
  | some version => .error (.unsupportedVersion version)
  | none =>
    match codec.deserialize payload with
    | .error e => .error (.codec e)
    | .ok ((version, message), used) =>
      if used ≠ payload.length then .error .trailingBytes
      else if version ≠ protocolVersion then .error (.unsupportedVersion version)
      else .ok message

/-- Appends the frame of a message to what was written. -/
def writeMessage (written : Bytes) (message : M) : Except ProtoError Bytes :=
  match encodeFrame codec message with
  | .error e => .error e
  | .ok frame => .ok (written ++ frame)

/-- Reads a payload from a stream that ends with an error, and what is left of the stream. A
length over the limit is refused before its payload is read. -/
def readPayload (ending : ErrorKind) (stream : Bytes) : Except ProtoError Bytes × Bytes :=
  if stream.length < 4 then (.error (.io ending), [])
  else
    let len := ofBigEndian (stream.take 4)
    let rest := stream.drop 4
    if maxFrameSize < len then (.error .frameTooLarge, rest)
    else if rest.length < len then (.error (.io ending), [])
    else (.ok (rest.take len), rest.drop len)

def readMessage (ending : ErrorKind) (stream : Bytes) : Except ProtoError M × Bytes :=
  match readPayload ending stream with
  | (.error e, rest) => (.error e, rest)
  | (.ok payload, rest) => (decodeFrame codec payload, rest)

/-- What the loop returns at an I/O error: the ends of a connection are no failure. -/
def ended : ErrorKind → Except ErrorKind Unit
  | .unexpectedEof | .connectionReset => .ok ()
  | .other name => .error (.other name)

variable {stream rest : Bytes} {ending : ErrorKind}

theorem length_readPayload_lt
    {payload : Except ProtoError Bytes} (h : readPayload ending stream = (payload, rest))
    (hio : ∀ kind, payload ≠ .error (.io kind)) : rest.length < stream.length := by
  simp only [readPayload] at h
  split_ifs at h with hshort hlarge hcut
  · exact absurd (congrArg Prod.fst h).symm (hio ending)
  · obtain ⟨-, rfl⟩ := Prod.mk.inj h
    rw [length_drop]
    omega
  · exact absurd (congrArg Prod.fst h).symm (hio ending)
  · obtain ⟨-, rfl⟩ := Prod.mk.inj h
    rw [length_drop, length_drop]
    omega

theorem decodeFrame_ne_io (payload : Bytes) (kind : ErrorKind) :
    decodeFrame codec payload ≠ .error (.io kind) := by
  rw [decodeFrame]
  split
  · simp
  · split
    · simp
    · split_ifs <;> simp

theorem readMessage_of_ok {stream payload rest : Bytes}
    (h : readPayload ending stream = (.ok payload, rest)) :
    readMessage codec ending stream = (decodeFrame codec payload, rest) := by
  rw [readMessage, h]

theorem readMessage_of_error {e : ProtoError}
    (h : readPayload ending stream = (.error e, rest)) :
    readMessage codec ending stream = (.error e, rest) := by
  rw [readMessage, h]

theorem length_readMessage_lt
    {message : Except ProtoError M} (h : readMessage codec ending stream = (message, rest))
    (hio : ∀ kind, message ≠ .error (.io kind)) : rest.length < stream.length := by
  rcases hread : readPayload ending stream with ⟨e | payload, rest'⟩
  · rw [readMessage_of_error codec hread] at h
    obtain ⟨rfl, rfl⟩ := Prod.mk.inj h
    exact length_readPayload_lt hread fun kind hkind => hio kind (by rw [Except.error.inj hkind])
  · rw [readMessage_of_ok codec hread] at h
    obtain ⟨-, rfl⟩ := Prod.mk.inj h
    exact length_readPayload_lt hread fun kind hkind => nomatch hkind

/-- The reading loop: the messages it hands over and what it returns. -/
def runDaemonReader (ending : ErrorKind) (stream : Bytes) : List M × Except ErrorKind Unit :=
  match _h : readMessage codec ending stream with
  | (.ok message, rest) =>
    let result := runDaemonReader ending rest
    (message :: result.1, result.2)
  | (.error (.io kind), _) => ([], ended kind)
  | (.error (.codec _), rest) => runDaemonReader ending rest
  | (.error .frameTooLarge, rest) => runDaemonReader ending rest
  | (.error .trailingBytes, rest) => runDaemonReader ending rest
  | (.error (.unsupportedVersion _), rest) => runDaemonReader ending rest
termination_by stream.length
decreasing_by all_goals exact length_readMessage_lt codec ‹_› (by simp)

/-! ### The loop, step by step -/

variable {codec} {ending : ErrorKind}

theorem runDaemonReader_of_ok {message : M}
    (h : readMessage codec ending stream = (.ok message, rest)) :
    runDaemonReader codec ending stream =
      (message :: (runDaemonReader codec ending rest).1, (runDaemonReader codec ending rest).2) := by
  rw [runDaemonReader]
  split <;> simp_all

theorem runDaemonReader_of_io {kind : ErrorKind}
    (h : readMessage codec ending stream = (.error (.io kind), rest)) :
    runDaemonReader codec ending stream = ([], ended kind) := by
  rw [runDaemonReader]
  split <;> simp_all

theorem runDaemonReader_of_skip {e : ProtoError}
    (h : readMessage codec ending stream = (.error e, rest)) (hio : ∀ kind, e ≠ .io kind) :
    runDaemonReader codec ending stream = runDaemonReader codec ending rest := by
  rcases e with kind | _ | _ | _ | _
  · exact absurd rfl (hio kind)
  all_goals
    rw [runDaemonReader]
    split <;> simp_all

/-! ### Frames -/

/-- A frame: a payload whose length fits in four bytes. -/
structure Frame where
  payload : Bytes
  fits : payload.length < 2 ^ 32

def Frame.bytes (frame : Frame) : Bytes := bigEndian 4 frame.payload.length ++ frame.payload

/-- The length that stands before a frame. -/
def Frame.length (frame : Frame) : UInt32 := UInt32.ofNat frame.payload.length

def Frame.message (codec : Codec M) (frame : Frame) : Option M :=
  if maxFrameSize < frame.payload.length then none else (decodeFrame codec frame.payload).toOption

variable (frames : List Frame)

/-- The bytes of frames one after the other. -/
def frameBytes : Bytes := frames.flatMap Frame.bytes

/-- The frames that arrived whole when the stream is cut after a number of bytes. -/
def completeFrames : ℕ → List Frame → List Frame
  | _, [] => []
  | arrived, frame :: frames =>
    if frame.bytes.length ≤ arrived then
      frame :: completeFrames (arrived - frame.bytes.length) frames
    else []

/-- The reading loop hands over exactly the messages of the frames that arrived, in their order,
wherever the stream is cut and however it ends. -/
def ReadsFrames (codec : Codec M) (frames : List Frame) : Prop :=
  ∀ (arrived : ℕ) (ending : ErrorKind),
    runDaemonReader codec ending ((frameBytes frames).take arrived) =
      ((completeFrames arrived frames).filterMap (Frame.message codec), ended ending)

@[simp] theorem length_bytes (frame : Frame) : frame.bytes.length = 4 + frame.payload.length := by
  rw [Frame.bytes, length_append, length_bigEndian]

@[simp] theorem toNat_length (frame : Frame) : frame.length.toNat = frame.payload.length :=
  UInt32.toNat_ofNat_of_lt' frame.fits

theorem frameBytes_cons (frame : Frame) (frames : List Frame) :
    frameBytes (frame :: frames) = frame.bytes ++ frameBytes frames := rfl

theorem ofBigEndian_take_header (frame : Frame) (rest : Bytes) :
    ofBigEndian ((bigEndian 4 frame.payload.length ++ rest).take 4) = frame.payload.length := by
  rw [take_left' (length_bigEndian 4 _), ofBigEndian_bigEndian]
  exact Nat.mod_eq_of_lt frame.fits

theorem drop_header (frame : Frame) (rest : Bytes) :
    (bigEndian 4 frame.payload.length ++ rest).drop 4 = rest :=
  drop_left' (length_bigEndian 4 _)

theorem readPayload_header (frame : Frame) (rest : Bytes)
    (hlarge : maxFrameSize < frame.payload.length) :
    readPayload ending (bigEndian 4 frame.payload.length ++ rest) =
      (.error .frameTooLarge, rest) := by
  simp only [readPayload, ofBigEndian_take_header, drop_header, length_append,
    length_bigEndian]
  rw [if_neg (by omega), if_pos hlarge]

theorem readPayload_bytes (frame : Frame) (rest : Bytes)
    (hsmall : frame.payload.length ≤ maxFrameSize) :
    readPayload ending (frame.bytes ++ rest) = (.ok frame.payload, rest) := by
  simp only [Frame.bytes, append_assoc, readPayload, ofBigEndian_take_header, drop_header,
    length_append, length_bigEndian, take_left, drop_left]
  rw [if_neg (by omega), if_neg (by omega), if_neg (by omega)]

theorem readPayload_cut (frame : Frame) (rest : Bytes) (arrived : ℕ)
    (hsmall : frame.payload.length ≤ maxFrameSize) (hcut : arrived < frame.bytes.length) :
    readPayload ending ((frame.bytes ++ rest).take arrived) = (.error (.io ending), []) := by
  rw [length_bytes] at hcut
  rw [take_append_of_le_length (by rw [length_bytes]; omega), Frame.bytes]
  by_cases hheader : arrived < 4
  · rw [readPayload, if_pos (by rw [length_take]; omega)]
  · have htake : (bigEndian 4 frame.payload.length ++ frame.payload).take arrived =
        bigEndian 4 frame.payload.length ++ frame.payload.take (arrived - 4) := by
      rw [take_append, length_bigEndian,
        take_of_length_le (by rw [length_bigEndian]; omega)]
    simp only [htake, readPayload, ofBigEndian_take_header, drop_header, length_append,
      length_bigEndian, length_take]
    rw [if_neg (by omega), if_neg (by omega), if_pos (by omega)]

/-- The loop over a frame within the limit: its message, then the rest. -/
theorem runDaemonReader_bytes (frame : Frame) (rest : Bytes)
    (hsmall : frame.payload.length ≤ maxFrameSize) :
    runDaemonReader codec ending (frame.bytes ++ rest) =
      ((frame.message codec).toList ++ (runDaemonReader codec ending rest).1,
        (runDaemonReader codec ending rest).2) := by
  have hread : readMessage codec ending (frame.bytes ++ rest) =
      (decodeFrame codec frame.payload, rest) :=
    readMessage_of_ok codec (readPayload_bytes frame rest hsmall)
  rw [Frame.message, if_neg (by omega)]
  rcases hdecode : decodeFrame codec frame.payload with e | message
  · rw [hdecode] at hread
    rw [runDaemonReader_of_skip hread
      (by rintro kind rfl; exact decodeFrame_ne_io codec _ kind hdecode)]
    rfl
  · rw [hdecode] at hread
    rw [runDaemonReader_of_ok hread]
    rfl

/-- The loop at a frame that did not arrive whole. -/
theorem runDaemonReader_cut (frame : Frame) (rest : Bytes) (arrived : ℕ)
    (hsmall : frame.payload.length ≤ maxFrameSize) (hcut : arrived < frame.bytes.length) :
    runDaemonReader codec ending ((frame.bytes ++ rest).take arrived) = ([], ended ending) :=
  runDaemonReader_of_io (readMessage_of_error codec (readPayload_cut frame rest arrived hsmall hcut))

theorem runDaemonReader_nil : runDaemonReader codec ending [] = ([], ended ending) :=
  have hread : readMessage codec ending [] = (.error (.io ending), []) := rfl
  runDaemonReader_of_io hread

theorem runDaemonReader_frames (rest : Bytes)
    (hsmall : ∀ frame ∈ frames, frame.payload.length ≤ maxFrameSize) :
    runDaemonReader codec ending (frameBytes frames ++ rest) =
      (frames.filterMap (Frame.message codec) ++ (runDaemonReader codec ending rest).1,
        (runDaemonReader codec ending rest).2) := by
  induction frames with
  | nil => rfl
  | cons frame frames ih =>
    have htail := ih fun f hf => hsmall f (mem_cons_of_mem _ hf)
    rw [frameBytes_cons, append_assoc,
      runDaemonReader_bytes frame _ (hsmall frame mem_cons_self), htail]
    rcases h : frame.message codec with _ | message <;> simp [h]

/-- Streams of frames within the limit are read right. -/
theorem readsFrames_of_le
    (hsmall : ∀ frame ∈ frames, frame.payload.length ≤ maxFrameSize) :
    ReadsFrames codec frames := by
  intro arrived ending
  induction frames generalizing arrived with
  | nil => rw [frameBytes, flatMap_nil, take_nil, runDaemonReader_nil]; rfl
  | cons frame frames ih =>
    have hframe := hsmall frame mem_cons_self
    rw [frameBytes_cons, completeFrames]
    split_ifs with hwhole
    · rw [take_append, take_of_length_le hwhole, runDaemonReader_bytes frame _ hframe,
        ih (fun f hf => hsmall f (mem_cons_of_mem _ hf))]
      rcases h : frame.message codec with _ | message <;> simp [h]
    · rw [runDaemonReader_cut frame _ arrived hframe (by omega)]
      rfl

/-! ### Frames over the limit -/

theorem ReadsFrames.tail {frame : Frame} {frames : List Frame}
    (h : ReadsFrames codec (frame :: frames)) (hsmall : frame.payload.length ≤ maxFrameSize) :
    ReadsFrames codec frames := by
  intro arrived ending
  have hall := h (frame.bytes.length + arrived) ending
  rw [frameBytes_cons, take_length_add_append, completeFrames, if_pos (by omega),
    Nat.add_sub_cancel_left, runDaemonReader_bytes frame _ hsmall] at hall
  obtain ⟨hmessages, hresult⟩ := Prod.mk.inj hall
  refine Prod.ext ?_ hresult
  rcases hmessage : frame.message codec with _ | message
  · simpa [hmessage] using hmessages
  · simpa [hmessage] using hmessages

/-- A frame over the limit whose payload begins with a frame of a message: if the stream is cut
after that inner frame, its message is handed over, although no frame arrived whole. -/
theorem not_readsFrames_of_inner {frame inner : Frame} {message : M} (tail : Bytes)
    (frames : List Frame) (hshort : inner.bytes.length ≤ maxFrameSize)
    (hmessage : inner.message codec = some message) (hpayload : frame.payload = inner.bytes ++ tail)
    (hlarge : maxFrameSize < frame.payload.length) : ¬ ReadsFrames codec (frame :: frames) := by
  intro h
  have hsmall : inner.payload.length ≤ maxFrameSize := by rw [length_bytes] at hshort; omega
  have hframe : frame.bytes = bigEndian 4 frame.payload.length ++ (inner.bytes ++ tail) := by
    rw [← hpayload, Frame.bytes]
  have hcut := h (4 + inner.bytes.length) .unexpectedEof
  have hstream : (frameBytes (frame :: frames)).take (4 + inner.bytes.length) =
      bigEndian 4 frame.payload.length ++ inner.bytes := by
    rw [frameBytes_cons, hframe, append_assoc, append_assoc, ← append_assoc,
      take_left' (by rw [length_append, length_bigEndian])]
  have hnone : completeFrames (4 + inner.bytes.length) (frame :: frames) = [] := by
    rw [completeFrames, if_neg]
    rw [length_bytes frame]
    omega
  rw [hstream, hnone,
    runDaemonReader_of_skip (readMessage_of_error codec (readPayload_header frame _ hlarge))
      (by simp),
    ← append_nil inner.bytes, runDaemonReader_bytes inner _ hsmall, hmessage] at hcut
  exact absurd (congrArg Prod.fst hcut) (by simp)

/-- A frame of a given length. -/
def blankFrame (length : UInt32) : Frame where
  payload := List.replicate length.toNat 0
  fits := by rw [length_replicate]; exact length.toNat_lt

theorem length_blankFrame (length : UInt32) : (blankFrame length).length = length := by
  rw [← UInt32.toNat_inj, toNat_length, blankFrame, length_replicate]

/-- A frame of a given length whose payload begins with given bytes. -/
def paddedFrame (start : Bytes) (length : UInt32) (h : start.length ≤ length.toNat) : Frame where
  payload := start ++ List.replicate (length.toNat - start.length) 0
  fits := by
    rw [length_append, length_replicate]
    have := length.toNat_lt
    omega

theorem length_paddedFrame (start : Bytes) (length : UInt32) (h : start.length ≤ length.toNat) :
    (paddedFrame start length h).length = length := by
  rw [← UInt32.toNat_inj, toNat_length, paddedFrame, length_append, length_replicate]
  omega

/-! ### Written messages are read back -/

theorem decodeFrame_of_encodeInner {message : M} {payload : Bytes}
    (h : encodeInner codec message = .ok payload) : decodeFrame codec payload = .ok message := by
  rw [encodeInner] at h
  rcases hwrite : codec.toVecNamed (protocolVersion, message) with e | written
  · simp [hwrite] at h
  · simp only [hwrite] at h
    split_ifs at h
    obtain rfl := Except.ok.inj h
    have hread : codec.deserialize written = .ok ((protocolVersion, message), written.length) := by
      have hrest := codec.deserialize_append hwrite []
      rwa [append_nil] at hrest
    obtain ⟨body, rfl⟩ := codec.envelope hwrite (by decide)
    rw [decodeFrame, mismatchedVersion, if_neg (by simp)]
    simp [hread]

theorem exists_frame_of_encodeFrame {message : M} {bytes : Bytes}
    (h : encodeFrame codec message = .ok bytes) :
    ∃ frame : Frame, frame.bytes = bytes ∧ frame.payload.length ≤ maxFrameSize ∧
      frame.message codec = some message := by
  rw [encodeFrame] at h
  rcases hinner : encodeInner codec message with e | payload
  · simp [hinner] at h
  · simp only [hinner] at h
    split_ifs at h with hlong
    have hsmall : payload.length ≤ maxFrameSize := by
      rw [encodeInner] at hinner
      rcases hwrite : codec.toVecNamed (protocolVersion, message) with e | written
      · simp [hwrite] at hinner
      · simp only [hwrite] at hinner
        split_ifs at hinner with hover
        obtain rfl := Except.ok.inj hinner
        omega
    refine ⟨⟨payload, by omega⟩, Except.ok.inj h, hsmall, ?_⟩
    rw [Frame.message, if_neg (by simpa using hsmall), decodeFrame_of_encodeInner hinner]
    rfl

theorem exists_frames_of_write (messages : List M) (before written : Bytes)
    (h : messages.foldlM (writeMessage codec) before = .ok written) :
    ∃ frames : List Frame, written = before ++ frameBytes frames ∧
      (∀ frame ∈ frames, frame.payload.length ≤ maxFrameSize) ∧
      frames.filterMap (Frame.message codec) = messages := by
  induction messages generalizing before with
  | nil => exact ⟨[], by simpa [frameBytes] using (Except.ok.inj h).symm, by simp, rfl⟩
  | cons message messages ih =>
    rw [foldlM_cons, writeMessage] at h
    rcases hencode : encodeFrame codec message with e | bytes
    · rw [hencode] at h
      exact nomatch h
    · rw [hencode] at h
      obtain ⟨frame, rfl, hsmall, hmessage⟩ := exists_frame_of_encodeFrame hencode
      obtain ⟨frames, rfl, hsmalls, hmessages⟩ := ih _ h
      refine ⟨frame :: frames, by rw [frameBytes_cons, append_assoc], ?_, ?_⟩
      · rintro f (_ | ⟨_, hf⟩)
        · exact hsmall
        · exact hsmalls f hf
      · rw [filterMap_cons_some hmessage, hmessages]

/-- For frames of given lengths: whatever their payloads are, the stream is read right wherever it
is cut, exactly if no length is over the limit. And any messages that the encoder accepts are read
back as they were written. -/
theorem framing_iff (codec : Codec M) {message : M} {bytes : Bytes}
    (hencode : encodeFrame codec message = .ok bytes) (hshort : bytes.length ≤ maxFrameSize)
    (lengths : List UInt32) :
    ((∀ frames : List Frame, frames.map Frame.length = lengths → ReadsFrames codec frames) ↔
        ∀ length ∈ lengths, length.toNat ≤ maxFrameSize) ∧
      ∀ (messages : List M) (written : Bytes) (ending : ErrorKind),
        messages.foldlM (writeMessage codec) [] = .ok written →
          runDaemonReader codec ending written = (messages, ended ending) := by
  refine ⟨⟨fun h => ?_, fun h frames hframes => ?_⟩, fun messages written ending hwrite => ?_⟩
  · induction lengths with
    | nil => simp
    | cons length lengths ih =>
      have hhead : length.toNat ≤ maxFrameSize := by
        by_contra hlarge
        obtain ⟨inner, rfl, -, hmessage⟩ := exists_frame_of_encodeFrame hencode
        have hfits : inner.bytes.length ≤ length.toNat := by omega
        have hpadded := length_paddedFrame inner.bytes length hfits
        refine not_readsFrames_of_inner _ (lengths.map blankFrame) hshort hmessage rfl ?_
          (h (paddedFrame inner.bytes length hfits :: lengths.map blankFrame) ?_)
        · rw [← toNat_length, hpadded]
          omega
        · simp [hpadded, length_blankFrame, Function.comp_def]
      have htail := ih fun frames hframes =>
        (h (blankFrame length :: frames) (by rw [map_cons, length_blankFrame, hframes])).tail
          (by rwa [← toNat_length, length_blankFrame])
      rintro l (_ | ⟨_, hl⟩)
      · exact hhead
      · exact htail l hl
  · refine readsFrames_of_le frames fun frame hframe => ?_
    rw [← toNat_length]
    exact h _ (hframes ▸ mem_map_of_mem hframe)
  · obtain ⟨frames, rfl, hsmall, rfl⟩ := exists_frames_of_write messages [] written hwrite
    have hread := @runDaemonReader_frames _ codec ending frames [] hsmall
    rwa [runDaemonReader_nil, append_nil, append_nil] at hread

/-! ### A message without fields -/

namespace Notice

/-- The name of a variant without fields as it is written: its length and its characters. -/
def nameBytes : Bytes := [0xA7, 0x45, 0x76, 0x69, 0x63, 0x74, 0x65, 0x64]

def readName (version : UInt8) (taken : ℕ) (rest : Bytes) : Except String ((UInt8 × Unit) × ℕ) :=
  if nameBytes.isPrefixOf rest then .ok ((version, ()), taken + nameBytes.length)
  else .error "unknown variant"

/-- The serialization of the one variant `Evicted`. -/
def notices : Codec Unit where
  toVecNamed value :=
    .ok ((if value.1 < 128 then [0x92, value.1] else [0x92, 0xCC, value.1]) ++ nameBytes)
  deserialize bytes :=
    match bytes with
    | [] | [_] => .error "unexpected end"
    | array :: version :: rest =>
      if array ≠ 0x92 then .error "invalid type"
      else if version < 128 then readName version 2 rest
      else if version ≠ 0xCC then .error "invalid type"
      else match rest with
        | [] => .error "unexpected end"
        | wide :: rest => readName wide 3 rest
  deserialize_append := by
    rintro ⟨version, _⟩ payload h rest
    obtain rfl := Except.ok.inj h
    have hname : nameBytes.isPrefixOf (nameBytes ++ rest) = true :=
      isPrefixOf_iff_prefix.2 (prefix_append _ _)
    by_cases hversion : version < 128
    · simp only [hversion, if_true, cons_append, nil_append, ne_eq, not_true_eq_false,
        if_false, readName, hname]
      rfl
    · simp only [hversion, if_false, cons_append, nil_append, ne_eq, not_true_eq_false,
        readName, hname, if_true]
      rfl
  envelope := by
    rintro version _ payload h hversion
    exact ⟨nameBytes, by rw [← Except.ok.inj h, if_pos hversion]; rfl⟩

def frame : Bytes := [0, 0, 0, 10, 0x92, 4] ++ nameBytes

/-- The frame over the limit that begins with the frame of the message. -/
def overlong : Frame := paddedFrame frame 33554433 (by decide)

/-- A stream of one frame over the limit: the message inside its payload is handed over. -/
theorem not_readsFrames_overlong : ¬ ReadsFrames notices [overlong] := by
  have hencode : encodeFrame notices () = .ok frame := rfl
  obtain ⟨inner, hinner, -, hmessage⟩ := exists_frame_of_encodeFrame hencode
  refine not_readsFrames_of_inner _ [] ?_ hmessage (congrArg (· ++ _) hinner.symm) ?_
  · rw [hinner]
    decide
  · rw [← toNat_length, overlong, length_paddedFrame]
    decide

theorem framing_iff_twoFrames :
    ((∀ frames : List Frame, frames.map Frame.length = [10, 33554433] →
        ReadsFrames notices frames) ↔
          ∀ length ∈ ([10, 33554433] : List UInt32), length.toNat ≤ maxFrameSize) ∧
      ∀ (messages : List Unit) (written : Bytes) (ending : ErrorKind),
        messages.foldlM (writeMessage notices) [] = .ok written →
          runDaemonReader notices ending written = (messages, ended ending) :=
  @framing_iff _ notices () frame rfl (by decide) [10, 33554433]

end Notice

end Choreo.Wire
