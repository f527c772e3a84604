import Choreo.Text
import Choreo.Vm.GuestCalls

/-!
# Results of a guest's tool calls

The host answers a call of a guest with the outcome of the tool in the postcard format: a result of
the tool inside a result of the infrastructure (`encode_outer` of `choreo-daemon/src/tools/mod.rs`).
The answers to a batch follow their number, each with its length before it. The guest reads both by
hand (`choreo-daemon/src/tools/vm.rs`), into a buffer of fixed size that the host fills as far as it
goes.

The guest takes every error for a text, and stops a batch at the first one. An error with variants
is not a text, and what follows the first error of a batch is lost.
-/

namespace Choreo

open List Option

open Postcard (Blob Seq)
open Postcard renaming Text → WireText

/-! ### Outcomes -/

/-- The errors of the database tools. -/
inductive DbError
  | notFound (key : WireText)
  | noSessionContext
  | storage (error : WireText)

inductive HttpError
  | unsupportedMethod (method : WireText)
  | invalidUrl (url : WireText)
  | unsupportedUrlScheme (scheme : WireText)
  | invalidHeader (name error : WireText)
  | requestFailed (error : WireText)

/-- The errors of a tool: a message alone (`ToolExecError`, and the texts of outside tools), or one
of the two kinds with variants. -/
inductive DomainError
  | message (text : WireText)
  | db (error : DbError)
  | http (error : HttpError)

/-- The errors around the execution of a tool. -/
inductive ToolError
  | invalidArguments (text : WireText)
  | io (text : WireText)
  | postcard (text : WireText)
  | other (text : WireText)

/-- What `execute_postcard` returns: the encoded value of the tool, its error, or an error around
it. -/
inductive ToolReturn
  | ok (value : Bytes)
  | failed (error : DomainError)
  | broken (error : ToolError)

/-- How a call of a batch ends: its thread returns or panics. -/
inductive CallOutcome
  | returned (result : ToolReturn)
  | panicked

def DbError.write : DbError → Bytes
  | .notFound key => 0 :: Postcard.str.write key
  | .noSessionContext => [1]
  | .storage error => 2 :: Postcard.str.write error

def HttpError.write : HttpError → Bytes
  | .unsupportedMethod method => 0 :: Postcard.str.write method
  | .invalidUrl url => 1 :: Postcard.str.write url
  | .unsupportedUrlScheme scheme => 2 :: Postcard.str.write scheme
  | .invalidHeader name error => 3 :: (Postcard.str.write name ++ Postcard.str.write error)
  | .requestFailed error => 4 :: Postcard.str.write error

def DomainError.write : DomainError → Bytes
  | .message text => Postcard.str.write text
  | .db error => error.write
  | .http error => error.write

def ToolError.write : ToolError → Bytes
  | .invalidArguments text => 0 :: Postcard.str.write text
  | .io text => 1 :: Postcard.str.write text
  | .postcard text => 2 :: Postcard.str.write text
  | .other text => 3 :: Postcard.str.write text

def DbError.message : DbError → String
  | .notFound key => "key not found: " ++ key.1
  | .noSessionContext => "no session context"
  | .storage error => "storage error: " ++ error.1

def HttpError.message : HttpError → String
  | .unsupportedMethod method => "unsupported method: " ++ method.1
  | .invalidUrl url => "invalid url: " ++ url.1
  | .unsupportedUrlScheme scheme => "unsupported URL scheme: " ++ scheme.1
  | .invalidHeader name error => "invalid header " ++ (name.1 ++ (": " ++ error.1))
  | .requestFailed error => "request failed: " ++ error.1

/-- The message of a tool's error. -/
def DomainError.text : DomainError → String
  | .message text => text.1
  | .db error => error.message
  | .http error => error.message

def ToolError.message : ToolError → String
  | .invalidArguments text => "invalid arguments: " ++ text.1
  | .io text => "I/O error: " ++ text.1
  | .postcard text => "postcard error: " ++ text.1
  | .other text => text.1

def encodeOuter : ToolReturn → Bytes
  | .ok value => 0 :: 0 :: value
  | .failed error => 0 :: 1 :: error.write
  | .broken error => 1 :: error.write

def panicText : WireText := ⟨"tool thread panicked", by decide⟩

namespace CallOutcome

/-- The bytes of an outcome. A panic is sent as the error of a result without another inside. -/
def frame : CallOutcome → Bytes
  | .returned result => encodeOuter result
  | .panicked => 1 :: Postcard.str.write panicText

/-- The outcome as the guest should get it: the encoded value, or the message of the error. -/
def result : CallOutcome → Except String Bytes
  | .returned (.ok value) => .ok value
  | .returned (.failed error) => .error error.text
  | .returned (.broken error) => .error error.message
  | .panicked => .error panicText.1

/-- Whether the tool succeeded. -/
def isOk : CallOutcome → Bool
  | .returned (.ok _) => true
  | _ => false

/-- An outcome in the answer to a batch, with its length (of 32 bits) before it. -/
def framed (outcome : CallOutcome) : Bytes :=
  Protobuf.varint (outcome.frame.length % 2 ^ 32) ++ outcome.frame

end CallOutcome

/-! ### Decoders of the guest -/

/-- Reads a number as a guest does, from the given place on: the value so far, where the next group
of bits goes, and the number of bytes read. -/
def decVarintFrom (value shift consumed : ℕ) : Bytes → Except String (ℕ × ℕ)
  | [] => .error "unterminated varint"
  | byte :: rest =>
    let value := value ||| (byte.toNat % 128) <<< shift % 2 ^ 64
    if byte.toNat < 128 then .ok (value, consumed + 1)
    else if 63 < shift + 7 then .error "varint too large"
    else decVarintFrom value (shift + 7) (consumed + 1) rest

/-- Reads a number, and how many bytes it takes. -/
def decVarint (buf : Bytes) : Except String (ℕ × ℕ) := decVarintFrom 0 0 0 buf

/-- Reads a text, and how many bytes it takes. -/
def decStr (buf : Bytes) : Except String (String × ℕ) :=
  match decVarint buf with
  | .error error => .error error
  | .ok (len, start) =>
    if buf.length < start + len then .error "string too short"
    else
      match fromUtf8 ((buf.drop start).take len) with
      | none => .error "invalid utf-8"
      | some text => .ok (text, start + len)

variable (failure : String)

/-- The text at the beginning of bytes, or the given text if there is none. -/
def strOr (buf : Bytes) : String :=
  match decStr buf with
  | .error _ => failure
  | .ok (text, _) => text

def domainFailure : String := "failed to decode domain error"

def infraFailure : String := "failed to decode infrastructure error"

/-- Takes an outcome apart: the encoded value, or the message of the error. -/
def decodeDoubleFrame : Bytes → Except String Bytes
  | [] => .error "empty frame"
  | outerStatus :: rest =>
    if outerStatus = 0 then
      match rest with
      | [] => .error "truncated Ok"
      | innerStatus :: payload =>
        if innerStatus = 0 then .ok payload
        else if innerStatus = 1 then .error (strOr domainFailure payload)
        else .error "unknown inner result status"
    else if outerStatus = 1 then .error (strOr infraFailure rest)
    else .error "unknown result status"

/-- Reads the answer to a single call. -/
def decDoubleResult (resp : Bytes) : Except String Bytes := decodeDoubleFrame resp

/-- Reads the answer to a single call of a tool that returns a text. -/
def decDoubleStrResult (resp : Bytes) : Except String String :=
  match decDoubleResult resp with
  | .error error => .error error
  | .ok payload =>
    match decStr payload with
    | .error _ => .error "failed to decode string payload"
    | .ok (text, _) => .ok text

/-- Reads the next outcome of a batch, and how many bytes it takes. -/
def decResultRaw (data : Bytes) : Except String (Bytes × ℕ) :=
  if data = [] then .error "empty"
  else
    match decVarint data with
    | .error error => .error error
    | .ok (frameLen, start) =>
      if data.length < start + frameLen then .error "truncated frame"
      else
        match decodeDoubleFrame ((data.drop start).take frameLen) with
        | .error error => .error error
        | .ok payload => .ok (payload, start + frameLen)

/-- Reads the given number of outcomes. The loop ends with the bytes, and with the first error. -/
def decResults : ℕ → Bytes → List (Except String Bytes)
  | 0, _ => []
  | _ + 1, [] => []
  | count + 1, data =>
    match decResultRaw data with
    | .error error => [.error error]
    | .ok (payload, stop) => .ok payload :: decResults count (data.drop stop)

/-- Reads the answer to a batch. -/
def decBatch (data : Bytes) : List (Except String Bytes) :=
  match decVarint data with
  | .error _ => []
  | .ok (count, start) => decResults count (data.drop start)

/-! ### Calls -/

def outputSize : ℕ := 128 * 1024

/-- A single call: the guest sends the name and the encoded arguments, and the host writes as much
of the answer as the buffer takes; `none` when the host cannot read the request. -/
def callTool (execute : WireText → Bytes → ToolReturn) (name : WireText) (args : Bytes) :
    Option Bytes :=
  (Postcard.str.read (encStr name ++ args)).map fun read =>
    (encodeOuter (execute read.1 read.2)).take outputSize

def batchResponse (outcomes : List CallOutcome) : Bytes :=
  Protobuf.varint (outcomes.length % 2 ^ 32) ++ outcomes.flatMap CallOutcome.framed

variable (execute : ℕ → WireText → Blob → CallOutcome)

/-- The outcomes of the calls of a batch, each in a thread of its own. -/
def outcomes (requests : List (WireText × Blob)) :
    List CallOutcome :=
  requests.zipIdx.map fun request => execute request.2 request.1.1 request.1.2

/-- The host reads a batch, runs all of its calls and answers. -/
def handleBatch (request : Bytes) : Option Bytes :=
  (Postcard.u32.read request).bind fun counted =>
    (Postcard.readSeq (Postcard.str.pair Postcard.bytes) counted.1.toNat counted.2).map fun read =>
      batchResponse (outcomes execute read.1.1)

variable (requests : Seq (WireText × Blob))

/-- A batch of calls, from the requests to their results; `none` when the host cannot read it. -/
def callMulti :
    Option (List (Except String Bytes)) :=
  let request := encVarint (UInt64.ofNat requests.1.length) ++
    requests.1.flatMap fun request => encStr request.1 ++ encBytes request.2
  (handleBatch execute request).map fun response => decBatch (response.take outputSize)

/-! ### Which outcomes arrive -/

/-- The outcomes that a guest can read: a value, or an error that is a text alone. An error with
variants is read as a text whose length is the number of the variant. -/
def CallOutcome.Readable : CallOutcome → Prop
  | .returned (.ok _) => True
  | .returned (.failed (.message _)) => True
  | .returned (.failed _) => False
  | .returned (.broken (.other text)) => text.1 = "\x03\x03\x03"
  | .returned (.broken _) => False
  | .panicked => True

variable (outcome : CallOutcome)

/-- The error that a guest reports for an outcome of a batch that the buffer cuts off. -/
def CallOutcome.cutText (room : ℕ) : String :=
  if room < (Protobuf.varint (outcome.frame.length % 2 ^ 32)).length then "unterminated varint"
  else "truncated frame"

/-- The outcomes of a batch arrive in the room that is left for them: all but the last are values,
the last can be read, and all of them fit. An error that does not fit may be the very error that the
guest reports for it. -/
def Received (room : ℕ) : List CallOutcome → Prop
  | [] => True
  | outcome :: rest =>
    if outcome.framed.length ≤ room then
      if outcome.isOk then Received (room - outcome.framed.length) rest
      else rest = [] ∧ outcome.Readable
    else 0 < room ∧ rest = [] ∧ outcome.result = .error (outcome.cutText room)

/-! ### Numbers and texts -/

theorem length_varint_le (groups : ℕ) {n : ℕ} (hn : n < 128 ^ (groups + 1)) :
    (Protobuf.varint n).length ≤ groups + 1 := by
  induction groups generalizing n with
  | zero =>
    rw [Protobuf.varint, if_pos (by omega)]
    exact le_refl _
  | succ groups ih =>
    rw [Protobuf.varint]
    split_ifs with h
    · simp
    · have hrest : n / 128 < 128 ^ (groups + 1) := by
        rw [Nat.pow_succ] at hn
        exact Nat.div_lt_of_lt_mul (by rw [Nat.mul_comm]; exact hn)
      have hle := ih hrest
      rw [length_cons]
      omega

theorem length_varint_pos (n : ℕ) : 0 < (Protobuf.varint n).length :=
  length_pos_of_ne_nil (Protobuf.varint_ne_nil n)

theorem or_shiftLeft {value bits shift : ℕ} (hvalue : value < 2 ^ shift)
    (hbits : bits * 2 ^ shift < 2 ^ 64) :
    value ||| bits <<< shift % 2 ^ 64 = value + bits * 2 ^ shift := by
  rw [Nat.shiftLeft_eq, Nat.mod_eq_of_lt hbits, Nat.or_comm, Nat.mul_comm,
    ← Nat.two_pow_add_eq_or_of_lt hvalue, Nat.add_comm]

theorem shift_le {n k : ℕ} (hn : n * 2 ^ (7 * k) < 2 ^ 64) (h : 128 ≤ n) : 7 * k + 7 ≤ 63 := by
  have hlt : 2 ^ (7 * k + 7) < 2 ^ 64 := by
    rw [Nat.pow_add, Nat.mul_comm]
    exact lt_of_le_of_lt (Nat.mul_le_mul_right _ h) hn
  have hexp := (Nat.pow_lt_pow_iff_right (by omega : 1 < 2)).1 hlt
  omega

/-- A guest reads a number as it is written, wherever its first group goes. -/
theorem decVarintFrom_varint {n k value : ℕ} (hvalue : value < 2 ^ (7 * k))
    (hn : n * 2 ^ (7 * k) < 2 ^ 64) (consumed : ℕ) (rest : Bytes) :
    decVarintFrom value (7 * k) consumed (Protobuf.varint n ++ rest) =
      .ok (value + n * 2 ^ (7 * k), consumed + (Protobuf.varint n).length) := by
  induction n using Nat.strongRecOn generalizing k value consumed with
  | ind n ih =>
    rw [Protobuf.varint]
    have hle : n % 128 * 2 ^ (7 * k) ≤ n * 2 ^ (7 * k) :=
      Nat.mul_le_mul_right _ (Nat.mod_le n 128)
    have hor : value ||| (n % 128) <<< (7 * k) % 2 ^ 64 = value + n % 128 * 2 ^ (7 * k) :=
      or_shiftLeft hvalue (lt_of_le_of_lt hle hn)
    split_ifs with h
    · rw [singleton_append, decVarintFrom, Protobuf.toNat_ofNat_of_lt (by omega), if_pos h,
        hor, Nat.mod_eq_of_lt h]
      rfl
    · have hshift := shift_le hn (by omega)
      have hmod : (n % 128 + 128) % 128 = n % 128 := by omega
      have hpow : 2 ^ (7 * (k + 1)) = 128 * 2 ^ (7 * k) := by
        rw [Nat.mul_add, Nat.pow_add, Nat.mul_comm]
      have hrest : n / 128 * 2 ^ (7 * (k + 1)) ≤ n * 2 ^ (7 * k) := by
        rw [hpow, ← Nat.mul_assoc]
        exact Nat.mul_le_mul_right _ (Nat.div_mul_le_self n 128)
      have hnext : value + n % 128 * 2 ^ (7 * k) < 2 ^ (7 * (k + 1)) := by
        have hbits : n % 128 * 2 ^ (7 * k) ≤ 127 * 2 ^ (7 * k) :=
          Nat.mul_le_mul_right _ (by omega)
        rw [hpow]
        omega
      have hjoin : n % 128 * 2 ^ (7 * k) + n / 128 * 2 ^ (7 * (k + 1)) = n * 2 ^ (7 * k) := by
        rw [hpow, ← Nat.mul_assoc, ← Nat.add_mul]
        congr 1
        omega
      rw [cons_append, decVarintFrom, Protobuf.toNat_ofNat_of_lt (by omega), if_neg (by omega),
        if_neg (by omega), hmod, hor]
      have hih := ih (n / 128) (by omega) (k := k + 1) hnext (lt_of_le_of_lt hrest hn)
        (consumed + 1)
      rw [Nat.mul_add] at hih
      refine hih.trans ?_
      rw [← Nat.mul_one 7, ← Nat.mul_add, Nat.mul_one, length_cons, Nat.add_assoc value, hjoin]
      congr 2
      omega

variable {cut : ℕ}

/-- A number that is cut off is noticed. -/
theorem decVarintFrom_take {n k : ℕ} (hn : n * 2 ^ (7 * k) < 2 ^ 64)
    (hcut : cut < (Protobuf.varint n).length) (value consumed : ℕ) :
    decVarintFrom value (7 * k) consumed ((Protobuf.varint n).take cut) =
      .error "unterminated varint" := by
  induction n using Nat.strongRecOn generalizing k value consumed cut with
  | ind n ih =>
    rw [Protobuf.varint] at hcut ⊢
    rcases cut with _ | cut
    · rfl
    · split_ifs at hcut ⊢ with h
      · rw [length_singleton] at hcut
        omega
      · have hshift := shift_le hn (by omega)
        have hrest : n / 128 * 2 ^ (7 * (k + 1)) ≤ n * 2 ^ (7 * k) := by
          rw [Nat.mul_add, Nat.pow_add, Nat.mul_comm (2 ^ (7 * k)), ← Nat.mul_assoc]
          exact Nat.mul_le_mul_right _ (Nat.div_mul_le_self n 128)
        rw [length_cons] at hcut
        rw [take_succ_cons, decVarintFrom, Protobuf.toNat_ofNat_of_lt (by omega),
          if_neg (by omega), if_neg (by omega)]
        exact ih (n / 128) (by omega) (k := k + 1) (lt_of_le_of_lt hrest hn)
          (Nat.lt_of_succ_lt_succ hcut) _ _

theorem decVarint_varint {n : ℕ} (hn : n < 2 ^ 64) (rest : Bytes) :
    decVarint (Protobuf.varint n ++ rest) = .ok (n, (Protobuf.varint n).length) := by
  have hzero : 0 < 2 ^ (7 * 0) := by decide
  have h := decVarintFrom_varint (n := n) hzero (by omega) 0 rest
  rw [Nat.mul_zero, Nat.pow_zero, Nat.mul_one, Nat.zero_add, Nat.zero_add] at h
  exact h

theorem decVarint_take {n : ℕ} (hn : n < 2 ^ 64)
    (hcut : cut < (Protobuf.varint n).length) :
    decVarint ((Protobuf.varint n).take cut) = .error "unterminated varint" :=
  decVarintFrom_take (k := 0) (by omega) hcut 0 0

variable (text : WireText)

/-- The bytes of a text. -/
theorem fromUtf8_blob : fromUtf8 text.blob.1 = some text.1 := by
  have hbytes : (⟨text.blob.1.toArray⟩ : ByteArray) = text.1.toByteArray := rfl
  rw [fromUtf8, hbytes, String.fromUTF8?, dif_pos text.1.isValidUTF8]
  rfl

theorem bytes_of_fromUtf8 {bytes : Bytes} {text : String} (h : fromUtf8 bytes = some text) :
    text.toByteArray.data.toList = bytes := by
  rw [fromUtf8, String.fromUTF8?] at h
  split_ifs at h
  cases h
  rfl

theorem size_of_fromUtf8 {bytes : Bytes} {text : String} (h : fromUtf8 bytes = some text) :
    text.utf8ByteSize = bytes.length := by
  rw [← bytes_of_fromUtf8 h]
  rfl

theorem length_str_write :
    (Postcard.str.write text).length =
      (Protobuf.varint text.blob.1.length).length + text.1.utf8ByteSize :=
  length_append

theorem decStr_write (rest : Bytes) :
    decStr (Postcard.str.write text ++ rest) = .ok (text.1, (Postcard.str.write text).length) := by
  have hwrite : Postcard.str.write text = Protobuf.varint text.blob.1.length ++ text.blob.1 := rfl
  rw [decStr, hwrite, append_assoc, decVarint_varint text.blob.2]
  dsimp only
  rw [if_neg (by simp), drop_left, take_left, fromUtf8_blob, length_append]

/-- A text that is cut off is noticed. -/
theorem decStr_take (hcut : cut < (Postcard.str.write text).length) :
    ∃ error, decStr ((Postcard.str.write text).take cut) = .error error := by
  have hwrite : Postcard.str.write text = Protobuf.varint text.blob.1.length ++ text.blob.1 := rfl
  rw [hwrite, length_append] at hcut
  rw [decStr, hwrite]
  rcases Nat.lt_or_ge cut (Protobuf.varint text.blob.1.length).length with h | h
  · rw [take_append_of_le_length h.le, decVarint_take text.blob.2 h]
    exact ⟨_, rfl⟩
  · rw [take_append, take_of_length_le h, decVarint_varint text.blob.2]
    dsimp only
    rw [if_pos (by rw [length_append, length_take]; omega)]
    exact ⟨_, rfl⟩

/-- A small number is one byte. -/
theorem decVarint_cons {byte : UInt8} (hbyte : byte.toNat < 128) (rest : Bytes) :
    decVarint (byte :: rest) = .ok (byte.toNat, 1) := by
  have hor : 0 ||| (byte.toNat % 128) <<< 0 % 2 ^ 64 = byte.toNat := by
    rw [or_shiftLeft (by decide) (by omega)]
    omega
  rw [decVarint, decVarintFrom, if_pos hbyte, hor]

theorem strOr_write :
    strOr failure (Postcard.str.write text) = text.1 := by
  have h := decStr_write text []
  rw [append_nil] at h
  rw [strOr, h]

theorem strOr_take
    (hcut : cut < (Postcard.str.write text).length) :
    strOr failure ((Postcard.str.write text).take cut) = failure := by
  obtain ⟨error, herror⟩ := decStr_take text hcut
  rw [strOr, herror]

theorem strOr_cons {variant : UInt8} (hvariant : variant.toNat < 128)
    (rest : Bytes) :
    strOr failure (variant :: rest) =
      if rest.length < variant.toNat then failure
      else (fromUtf8 (rest.take variant.toNat)).getD failure := by
  have hlength : (variant :: rest).length < 1 + variant.toNat ↔ rest.length < variant.toNat := by
    rw [length_cons]
    omega
  rw [strOr, decStr, decVarint_cons hvariant]
  dsimp only
  simp only [hlength, drop_succ_cons, drop_zero]
  split_ifs
  · rfl
  · cases fromUtf8 (rest.take variant.toNat) <;> rfl

theorem strOr_variant {variant : UInt8} (hvariant : variant.toNat < 128)
    (rest : Bytes) :
    strOr failure (variant :: rest) = failure ∨
      fromUtf8 (rest.take variant.toNat) = some (strOr failure (variant :: rest)) ∧
        (strOr failure (variant :: rest)).utf8ByteSize = variant.toNat := by
  rw [strOr_cons failure hvariant]
  split_ifs with hlength
  · exact .inl rfl
  · cases htext : fromUtf8 (rest.take variant.toNat) with
    | none => exact .inl rfl
    | some text =>
      refine .inr ⟨rfl, ?_⟩
      rw [getD_some, size_of_fromUtf8 htext, length_take]
      omega

theorem strOr_ne {failure start : String} {variant : UInt8}
    (h : variant.toNat < 128 ∧ variant.toNat < start.utf8ByteSize ∧ start ≠ "" ∧
      start.toList.head? ≠ failure.toList.head?) (text : String) (rest : Bytes) :
    strOr failure (variant :: rest) ≠ start ++ text := by
  obtain ⟨hvariant, hsize, hstart, hhead⟩ := h
  intro heq
  rcases strOr_variant failure hvariant rest with hfailure | ⟨-, hlength⟩
  · rw [hfailure] at heq
    refine hhead ?_
    have hcons : start.toList ≠ [] := fun hnil => hstart (String.toList_eq_nil_iff.1 hnil)
    rw [heq, String.toList_append, List.head?_append_of_ne_nil _ hcons]
  · rw [heq, String.utf8ByteSize_append] at hlength
    omega

/-! ### Single outcomes -/

theorem decodeDoubleFrame_value (value : Bytes) :
    decodeDoubleFrame (0 :: 0 :: value) = .ok value := rfl

theorem decodeDoubleFrame_failed (payload : Bytes) :
    decodeDoubleFrame (0 :: 1 :: payload) = .error (strOr domainFailure payload) := rfl

theorem decodeDoubleFrame_broken (payload : Bytes) :
    decodeDoubleFrame (1 :: payload) = .error (strOr infraFailure payload) := rfl

theorem str_write_of_short {text : WireText} (h : text.1.utf8ByteSize < 128) :
    Postcard.str.write text = UInt8.ofNat text.1.utf8ByteSize :: text.blob.1 := by
  change Protobuf.varint text.1.utf8ByteSize ++ text.blob.1 = _
  rw [Protobuf.varint, if_pos h, singleton_append]

/-- Only one text comes back when the number of its variant is taken for its length. -/
theorem strOr_other_iff :
    strOr infraFailure (3 :: Postcard.str.write text) = text.1 ↔ text.1 = "\x03\x03\x03" := by
  constructor
  · intro h
    have hvariant : (3 : UInt8).toNat < 128 := by decide
    rcases strOr_variant infraFailure hvariant (Postcard.str.write text) with
      hfailure | ⟨htext, hsize⟩
    · obtain rfl : text = ⟨infraFailure, by decide⟩ := Subtype.ext (h.symm.trans hfailure)
      have hread : fromUtf8 [37, 102, 97] = some "%fa" := fromUtf8_blob ⟨"%fa", by decide⟩
      have hfront : (UInt8.ofNat infraFailure.utf8ByteSize ::
          (Postcard.Text.blob ⟨infraFailure, by decide⟩).1).take (UInt8.toNat 3) =
          [37, 102, 97] := by
        decide
      rw [str_write_of_short (by decide), strOr_cons infraFailure (by decide), if_neg (by decide),
        hfront, hread] at h
      exact absurd h (by decide)
    · rw [h] at htext hsize
      have hshort : text.1.utf8ByteSize < 128 := by
        rw [hsize]
        decide
      have hwrite := str_write_of_short hshort
      have hthree : text.blob.1.length = 3 := hsize
      obtain ⟨a, b, c, habc⟩ := length_eq_three.1 hthree
      have hbytes : text.blob.1 = (Postcard.str.write text).take 3 := bytes_of_fromUtf8 htext
      rw [hwrite, habc, hsize] at hbytes
      have hlist : [a, b, c] = [3, a, b] := hbytes
      simp only [cons.injEq, and_true] at hlist
      obtain ⟨rfl, rfl, rfl⟩ := hlist
      exact String.toByteArray_inj.1 (ByteArray.ext (Array.toList_inj.1 habc))
  · intro h
    obtain rfl : text = ⟨"\x03\x03\x03", by decide⟩ := Subtype.ext h
    have hread : fromUtf8 [3, 3, 3] = some "\x03\x03\x03" :=
      fromUtf8_blob ⟨"\x03\x03\x03", by decide⟩
    rw [str_write_of_short (by decide), strOr_cons infraFailure (by decide), if_neg (by decide)]
    exact congrArg (Option.getD · infraFailure) hread

/-- An outcome is read as it is if and only if it is readable. -/
theorem decodeDoubleFrame_frame_iff :
    decodeDoubleFrame outcome.frame = outcome.result ↔ outcome.Readable := by
  have hne {failure start : String} {variant : UInt8}
      (h : variant.toNat < 128 ∧ variant.toNat < start.utf8ByteSize ∧ start ≠ "" ∧
        start.toList.head? ≠ failure.toList.head?) (text : String) (rest : Bytes) :
      (Except.error (strOr failure (variant :: rest)) : Except String Bytes) ≠
        .error (start ++ text) := fun heq => strOr_ne h text rest (Except.error.inj heq)
  rcases outcome with (value | (text | error | error) | error) | _
  · exact iff_of_true rfl trivial
  · exact iff_of_true (congrArg Except.error (strOr_write domainFailure text)) trivial
  · refine iff_of_false ?_ id
    rcases error with key | _ | error
    · exact hne (by decide) key.1 _
    · exact @hne _ "no session context" _ (by decide) "" _
    · exact hne (by decide) error.1 _
  · refine iff_of_false ?_ id
    rcases error with method | url | scheme | ⟨name, error⟩ | error
    · exact hne (by decide) method.1 _
    · exact hne (by decide) url.1 _
    · exact hne (by decide) scheme.1 _
    · exact hne (by decide) (name.1 ++ (": " ++ error.1)) _
    · exact hne (by decide) error.1 _
  · rcases error with text | text | text | text
    · exact iff_of_false (hne (by decide) text.1 _) id
    · exact iff_of_false (hne (by decide) text.1 _) id
    · exact iff_of_false (hne (by decide) text.1 _) id
    · exact ⟨fun h => (strOr_other_iff text).1 (Except.error.inj h),
        fun h => congrArg Except.error ((strOr_other_iff text).2 h)⟩
  · exact iff_of_true (congrArg Except.error (strOr_write infraFailure panicText)) trivial

variable {outcome : CallOutcome}

theorem length_frame_le {message : String}
    (h : outcome.result = .error message) : outcome.frame.length ≤ message.utf8ByteSize + 40 := by
  have hstr (text : WireText) :
      (Postcard.str.write text).length ≤ text.1.utf8ByteSize + 10 := by
    have hle := length_varint_le 9 (n := text.blob.1.length) (lt_trans text.blob.2 (by decide))
    rw [length_str_write]
    omega
  have hone (text : WireText) :
      (Postcard.str.write text).length + 2 ≤ text.1.utf8ByteSize + 40 := by
    have hle := hstr text
    omega
  have hstart (start : String) (text : WireText) :
      (Postcard.str.write text).length + 3 ≤ (start ++ text.1).utf8ByteSize + 40 := by
    have hle := hstr text
    rw [String.utf8ByteSize_append]
    omega
  rcases outcome with (value | (text | error | error) | error) | _
  · cases h
  · cases h
    exact hone text
  · rcases error with key | _ | error <;> cases h
    · exact hstart "key not found: " key
    · decide
    · exact hstart "storage error: " error
  · rcases error with method | url | scheme | ⟨name, error⟩ | error <;> cases h
    · exact hstart "unsupported method: " method
    · exact hstart "invalid url: " url
    · exact hstart "unsupported URL scheme: " scheme
    · have hname := hstr name
      have herror := hstr error
      change (Postcard.str.write name ++ Postcard.str.write error).length + 3 ≤
        ("invalid header " ++ (name.1 ++ (": " ++ error.1))).utf8ByteSize + 40
      rw [String.utf8ByteSize_append, String.utf8ByteSize_append, String.utf8ByteSize_append,
        length_append]
      omega
    · exact hstart "request failed: " error
  · rcases error with text | text | text | text <;> cases h
    · exact Nat.le_of_succ_le (hstart "invalid arguments: " text)
    · exact Nat.le_of_succ_le (hstart "I/O error: " text)
    · exact Nat.le_of_succ_le (hstart "postcard error: " text)
    · exact hone text
  · cases h
    exact Nat.le_of_succ_le (hone panicText)

/-- An error that is not read in full gives a short message. -/
theorem size_of_cut (hok : outcome.isOk = false)
    (hcut : cut < outcome.frame.length) :
    ∃ message, decodeDoubleFrame (outcome.frame.take cut) = .error message ∧
      message.utf8ByteSize ≤ 40 := by
  have hfailures : domainFailure.utf8ByteSize ≤ 40 ∧ infraFailure.utf8ByteSize ≤ 40 := by decide
  have hvariant {failure : String} (hfailure : failure.utf8ByteSize ≤ 40) (cut : ℕ)
      {variant : UInt8} (h : variant.toNat ≤ 4) (rest : Bytes) :
      (strOr failure ((variant :: rest).take cut)).utf8ByteSize ≤ 40 := by
    rcases cut with _ | cut
    · exact hfailure
    · rw [take_succ_cons]
      rcases strOr_variant failure (by omega : variant.toNat < 128) (rest.take cut) with
        heq | ⟨-, heq⟩
      · rw [heq]
        exact hfailure
      · omega
  have hfailed {error : DomainError} (h : ∀ cut < error.write.length,
      (strOr domainFailure (error.write.take cut)).utf8ByteSize ≤ 40) {cut : ℕ}
      (hcut : cut < (0 :: 1 :: error.write).length) :
      ∃ message, decodeDoubleFrame ((0 :: 1 :: error.write).take cut) = .error message ∧
        message.utf8ByteSize ≤ 40 := by
    rcases cut with _ | _ | cut
    · exact ⟨_, rfl, by decide⟩
    · exact ⟨_, rfl, by decide⟩
    · exact ⟨_, decodeDoubleFrame_failed _, h cut (by simpa using hcut)⟩
  have hbroken {payload : Bytes} (h : ∀ cut < payload.length,
      (strOr infraFailure (payload.take cut)).utf8ByteSize ≤ 40) {cut : ℕ}
      (hcut : cut < (1 :: payload).length) :
      ∃ message, decodeDoubleFrame ((1 :: payload).take cut) = .error message ∧
        message.utf8ByteSize ≤ 40 := by
    rcases cut with _ | cut
    · exact ⟨_, rfl, by decide⟩
    · exact ⟨_, decodeDoubleFrame_broken _, h cut (by simpa using hcut)⟩
  rcases outcome with (value | error | error) | _
  · cases hok
  · refine hfailed (fun cut hcut => ?_) hcut
    rcases error with text | error | error
    · exact (strOr_take domainFailure text hcut).symm ▸ hfailures.1
    · rcases error with key | _ | error <;> exact hvariant hfailures.1 cut (by decide) _
    · rcases error with method | url | scheme | ⟨name, error⟩ | error <;>
        exact hvariant hfailures.1 cut (by decide) _
  · refine hbroken (fun cut _ => ?_) hcut
    rcases error with text | text | text | text <;> exact hvariant hfailures.2 cut (by decide) _
  · refine hbroken (fun cut hcut => ?_) hcut
    exact (strOr_take infraFailure panicText hcut).symm ▸ hfailures.2

theorem exists_of_isOk (hok : outcome.isOk = true) :
    ∃ value, outcome = .returned (.ok value) := by
  rcases outcome with (value | _ | _) | _
  · exact ⟨value, rfl⟩
  all_goals cases hok

theorem exists_of_not_isOk (hok : outcome.isOk = false) :
    ∃ message, outcome.result = .error message := by
  rcases outcome with (_ | _ | _) | _
  · cases hok
  all_goals exact ⟨_, rfl⟩

theorem decodeDoubleFrame_take_ne
    (hcut : cut < outcome.frame.length) (hlong : 128 ≤ outcome.frame.length) :
    decodeDoubleFrame (outcome.frame.take cut) ≠ outcome.result := by
  cases hok : outcome.isOk with
  | true =>
    obtain ⟨value, rfl⟩ := exists_of_isOk hok
    have hvalue : cut < value.length + 2 := hcut
    rcases cut with _ | _ | cut
    · exact fun h => nomatch h
    · exact fun h => nomatch h
    · intro h
      have htake : value.take cut = value := Except.ok.inj h
      have hlength := congrArg List.length htake
      rw [length_take] at hlength
      omega
  | false =>
    obtain ⟨short, hshort, hsize⟩ := size_of_cut hok hcut
    obtain ⟨message, hmessage⟩ := exists_of_not_isOk hok
    have hle := length_frame_le hmessage
    rw [hshort, hmessage]
    rintro h
    rw [Except.error.inj h] at hsize
    omega

/-! ### Batches -/

theorem length_framed :
    outcome.framed.length =
      (Protobuf.varint (outcome.frame.length % 2 ^ 32)).length + outcome.frame.length :=
  length_append

theorem decResultRaw_framed (hlength : outcome.frame.length < 2 ^ 32)
    (rest : Bytes) :
    decResultRaw (outcome.framed ++ rest) =
      (decodeDoubleFrame outcome.frame).map fun payload => (payload, outcome.framed.length) := by
  have hne : outcome.framed ++ rest ≠ [] := by
    rw [CallOutcome.framed]
    simp [Protobuf.varint_ne_nil]
  have hmod := Nat.mod_eq_of_lt hlength
  rw [decResultRaw, if_neg hne, length_framed, CallOutcome.framed, hmod, append_assoc,
    decVarint_varint (lt_trans hlength (by decide))]
  dsimp only
  rw [if_neg (by simp), drop_left, take_left]
  cases decodeDoubleFrame outcome.frame <;> rfl

/-- An outcome of a batch that is cut off gives an error of the guest's own, unless it is so long
that its length is wrong; then it is not read as it is either. -/
theorem decResultRaw_take (outcome : CallOutcome) {room : ℕ} (hpos : 0 < room)
    (hroom : room < outcome.framed.length) :
    decResultRaw (outcome.framed.take room) = .error (outcome.cutText room) ∨
      2 ^ 32 ≤ outcome.frame.length ∧
        (decResultRaw (outcome.framed.take room)).map Prod.fst ≠ outcome.result := by
  set len := outcome.frame.length % 2 ^ 32 with hlen
  have hlt : len < 2 ^ 64 := lt_trans (Nat.mod_lt _ (by decide)) (by decide)
  have hframed : outcome.framed = Protobuf.varint len ++ outcome.frame := rfl
  rw [length_framed, ← hlen] at hroom
  have hne : outcome.framed.take room ≠ [] := by
    rw [hframed]
    simp [Protobuf.varint_ne_nil, hpos.ne']
  rw [decResultRaw, if_neg hne, CallOutcome.cutText, ← hlen]
  rcases Nat.lt_or_ge room (Protobuf.varint len).length with h | h
  · rw [if_pos h, hframed, take_append_of_le_length h.le, decVarint_take hlt h]
    exact .inl rfl
  · rw [if_neg (by omega), hframed, take_append, take_of_length_le h,
      decVarint_varint hlt]
    dsimp only
    have hsize : (Protobuf.varint len ++
        outcome.frame.take (room - (Protobuf.varint len).length)).length = room := by
      rw [length_append, length_take]
      omega
    rw [hsize, drop_left, take_take]
    by_cases hfits : room < (Protobuf.varint len).length + len
    · rw [if_pos hfits]
      exact .inl rfl
    · rw [if_neg hfits, Nat.min_eq_left (by omega)]
      have hwrap : 2 ^ 32 ≤ outcome.frame.length := by
        by_contra hsmall
        rw [Nat.mod_eq_of_lt (by omega)] at hlen
        omega
      have hcut : len < outcome.frame.length := by
        have hmod : len < 2 ^ 32 := Nat.mod_lt _ (by decide)
        omega
      refine .inr ⟨hwrap, ?_⟩
      have hread := decodeDoubleFrame_take_ne hcut (by omega)
      intro h
      refine hread (Eq.trans ?_ h)
      cases decodeDoubleFrame (outcome.frame.take len) <;> rfl

theorem decResults_succ (count : ℕ) {data : Bytes} (h : data ≠ []) :
    decResults (count + 1) data =
      match decResultRaw data with
      | .error error => [.error error]
      | .ok (payload, stop) => .ok payload :: decResults count (data.drop stop) := by
  rcases data with _ | ⟨byte, data⟩
  · exact absurd rfl h
  · rfl

/-- A batch of outcomes is read as it is if and only if it is received. -/
theorem decResults_eq_iff (outcomes : List CallOutcome) {room : ℕ} (hroom : room ≤ outputSize) :
    decResults outcomes.length ((outcomes.flatMap CallOutcome.framed).take room) =
        outcomes.map CallOutcome.result ↔ Received room outcomes := by
  induction outcomes generalizing room with
  | nil => exact iff_of_true rfl trivial
  | cons outcome rest ih =>
    have hpos : 0 < outcome.framed.length := by
      rw [length_framed]
      have hheader := length_varint_pos (outcome.frame.length % 2 ^ 32)
      omega
    rw [flatMap_cons, length_cons, map_cons, Received]
    split_ifs with hfits hok
    · obtain ⟨value, rfl⟩ := exists_of_isOk hok
      have hsmall : (CallOutcome.returned (.ok value)).frame.length < 2 ^ 32 := by
        rw [length_framed] at hfits
        have hsize : outputSize < 2 ^ 32 := by decide
        omega
      rw [take_append, take_of_length_le hfits,
        decResults_succ _ (by simp [ne_nil_of_length_pos hpos]), decResultRaw_framed hsmall]
      change _ :: decResults _ (List.drop _ _) = _ ↔ _
      rw [drop_left, cons.injEq, ih (by omega)]
      exact and_iff_right rfl
    · have hok' : outcome.isOk = false := Bool.eq_false_iff.2 hok
      have hsmall : outcome.frame.length < 2 ^ 32 := by
        rw [length_framed] at hfits
        have hsize : outputSize < 2 ^ 32 := by decide
        omega
      have herror : ∃ message, decodeDoubleFrame outcome.frame = .error message := by
        rcases outcome with (_ | _ | _) | _
        · cases hok'
        all_goals exact ⟨_, rfl⟩
      obtain ⟨message, hmessage⟩ := herror
      rw [take_append, take_of_length_le hfits,
        decResults_succ _ (by simp [ne_nil_of_length_pos hpos]), decResultRaw_framed hsmall,
        ← decodeDoubleFrame_frame_iff, hmessage]
      change [Except.error message] = _ ↔ _
      rw [cons.injEq, eq_comm (a := []), map_eq_nil_iff, and_comm]
    · rw [take_append_of_le_length (by omega)]
      by_cases hzero : room = 0
      · rw [hzero]
        exact iff_of_false (fun h => nomatch h) fun h => absurd h.1 (lt_irrefl 0)
      · have hne : outcome.framed.take room ≠ [] := by
          simp [hzero, ne_nil_of_length_pos hpos]
        rw [decResults_succ _ hne]
        rcases decResultRaw_take outcome (Nat.pos_of_ne_zero hzero) (by omega) with
          hcut | ⟨hwrap, hcut⟩
        · rw [hcut]
          change [Except.error _] = _ ↔ _
          rw [cons.injEq, eq_comm (a := []), map_eq_nil_iff,
            eq_comm (a := Except.error _)]
          exact ⟨fun h => ⟨Nat.pos_of_ne_zero hzero, h.2, h.1⟩, fun h => ⟨h.2.2, h.2.1⟩⟩
        · refine iff_of_false (fun h => hcut ?_) ?_
          · cases hraw : decResultRaw (outcome.framed.take room) with
            | error error | ok read =>
              rw [hraw] at h
              exact (cons.inj h).1
          · rintro ⟨-, -, hresult⟩
            have hle := length_frame_le hresult
            have htext : (outcome.cutText room).utf8ByteSize ≤ 40 := by
              rw [CallOutcome.cutText]
              split_ifs <;> decide
            omega

theorem length_outcomes
    (requests : List (WireText × Blob)) : (outcomes execute requests).length = requests.length := by
  rw [outcomes, List.length_map, length_zipIdx]

/-- The host reads the requests of a batch as the guest wrote them, and the guest reads as much of
the answer as its buffer holds. -/
theorem callMulti_eq
    (hcount : requests.1.length < 2 ^ 32) :
    callMulti execute requests =
      some (decResults requests.1.length (((outcomes execute requests.1).flatMap
        CallOutcome.framed).take (outputSize - (Protobuf.varint requests.1.length).length))) := by
  have hwrite : (fun request : WireText × Blob => encStr request.1 ++ encBytes request.2) =
      (Postcard.str.pair Postcard.bytes).write := by
    funext request
    rw [encStr_eq, encBytes_eq]
    rfl
  have hnat : (UInt32.ofNat requests.1.length).toNat = requests.1.length :=
    UInt32.toNat_ofNat_of_lt' hcount
  have hnumber (rest : Bytes) : Postcard.u32.read (Protobuf.varint requests.1.length ++ rest) =
      some (UInt32.ofNat requests.1.length, rest) := by
    have hwrite : Protobuf.varint requests.1.length =
        Postcard.u32.write (UInt32.ofNat requests.1.length) := congrArg Protobuf.varint hnat.symm
    rw [hwrite, Postcard.u32.read_write]
  have hsize : (Protobuf.varint requests.1.length).length ≤ outputSize :=
    (length_varint_le 9 (lt_trans requests.2 (by decide))).trans (by decide)
  have hresponse : batchResponse (outcomes execute requests.1) =
      Protobuf.varint requests.1.length ++
        (outcomes execute requests.1).flatMap CallOutcome.framed := by
    rw [batchResponse, length_outcomes, Nat.mod_eq_of_lt hcount]
  have hread := Postcard.readSeq_write (Postcard.str.pair Postcard.bytes) hnat.symm []
  rw [append_nil] at hread
  rw [callMulti, encLength_eq requests.2, hwrite, handleBatch, hnumber, bind_some, hread,
    map_some, map_some, hresponse, take_append, take_of_length_le hsize,
    decBatch, decVarint_varint requests.2]
  dsimp only
  rw [drop_left]

theorem callMulti_eq_none
    (hcount : 2 ^ 32 ≤ requests.1.length) :
    callMulti execute requests = none := by
  rw [callMulti, encLength_eq requests.2, handleBatch]
  have hread (rest : Bytes) :
      Postcard.u32.read (Protobuf.varint requests.1.length ++ rest) = none :=
    congrArg (Option.map _) (Postcard.readGroups_varint_of_le 4 hcount rest)
  rw [hread]
  rfl

/-- A batch gets its results if and only if they are received. -/
theorem callMulti_iff
    :
    callMulti execute requests = some ((outcomes execute requests.1).map CallOutcome.result) ↔
      requests.1.length < 2 ^ 32 ∧
        Received (outputSize - (Protobuf.varint requests.1.length).length)
          (outcomes execute requests.1) := by
  rcases Nat.lt_or_ge requests.1.length (2 ^ 32) with hcount | hcount
  · have hiff := decResults_eq_iff (outcomes execute requests.1)
      (Nat.sub_le outputSize (Protobuf.varint requests.1.length).length)
    rw [length_outcomes] at hiff
    rw [callMulti_eq execute requests hcount, some.injEq, hiff]
    exact (and_iff_right hcount).symm
  · rw [callMulti_eq_none execute requests hcount]
    exact iff_of_false (fun h => nomatch h) fun h => absurd h.1 (Nat.not_lt.2 hcount)

/-! ### Single calls -/

theorem callTool_eq (execute : WireText → Bytes → ToolReturn) (name : WireText) (args : Bytes) :
    callTool execute name args = some ((encodeOuter (execute name args)).take outputSize) := by
  rw [callTool, encStr_eq, Postcard.str.read_write, map_some]

theorem decDoubleResult_iff (result : ToolReturn) :
    decDoubleResult ((encodeOuter result).take outputSize) = (CallOutcome.returned result).result ↔
      (encodeOuter result).length ≤ outputSize ∧ (CallOutcome.returned result).Readable := by
  rcases Nat.lt_or_ge outputSize (encodeOuter result).length with h | h
  · have hcut : outputSize < (CallOutcome.returned result).frame.length := h
    have hne := decodeDoubleFrame_take_ne hcut ((by decide : 128 ≤ outputSize).trans h.le)
    exact iff_of_false hne fun hfits => absurd hfits.1 (Nat.not_le.2 h)
  · rw [take_of_length_le h, and_iff_right h]
    exact decodeDoubleFrame_frame_iff (.returned result)

def ToolReturn.ofText : Except (DomainError ⊕ ToolError) WireText → ToolReturn
  | .ok text => .ok (Postcard.str.write text)
  | .error (.inl error) => .failed error
  | .error (.inr error) => .broken error

/-- The text or the message that the guest should get. -/
def textResult : Except (DomainError ⊕ ToolError) WireText → Except String String
  | .ok text => .ok text.1
  | .error (.inl error) => .error error.text
  | .error (.inr error) => .error error.message

/-- An error of a tool that returns a text is read like that of any other tool. -/
theorem decDoubleStrResult_error_iff {result : ToolReturn} {message : String}
    (hresult : (CallOutcome.returned result).result = .error message) :
    decDoubleStrResult ((encodeOuter result).take outputSize) = .error message ↔
      (encodeOuter result).length ≤ outputSize ∧ (CallOutcome.returned result).Readable := by
  rw [← decDoubleResult_iff, hresult]
  have hok : (CallOutcome.returned result).isOk = false := by
    rcases result with _ | _ | _
    · cases hresult
    all_goals rfl
  have herror : ∃ read,
      decDoubleResult ((encodeOuter result).take outputSize) = .error read := by
    rcases Nat.lt_or_ge outputSize (encodeOuter result).length with h | h
    · obtain ⟨read, hread, -⟩ := size_of_cut hok h
      exact ⟨read, hread⟩
    · rw [take_of_length_le h]
      rcases result with _ | _ | _
      · cases hresult
      all_goals exact ⟨_, rfl⟩
  obtain ⟨read, hread⟩ := herror
  rw [decDoubleStrResult, hread, Except.error.injEq, Except.error.injEq]

/-- A single text is read as it is if and only if it fits, and an error if and only if it also is
readable. -/
theorem decDoubleStrResult_iff (returned : Except (DomainError ⊕ ToolError) WireText) :
    decDoubleStrResult ((encodeOuter (ToolReturn.ofText returned)).take outputSize) =
        textResult returned ↔
      (encodeOuter (ToolReturn.ofText returned)).length ≤ outputSize ∧
        (CallOutcome.returned (ToolReturn.ofText returned)).Readable := by
  rcases returned with (error | error) | text
  · exact decDoubleStrResult_error_iff rfl
  · exact decDoubleStrResult_error_iff rfl
  · have hlength : (encodeOuter (ToolReturn.ofText (.ok text))).length =
        (Postcard.str.write text).length + 2 := rfl
    rcases Nat.lt_or_ge outputSize (encodeOuter (ToolReturn.ofText (.ok text))).length with h | h
    · refine iff_of_false (fun heq => ?_) fun hfits => absurd hfits.1 (Nat.not_le.2 h)
      have hcut : outputSize - 2 < (Postcard.str.write text).length := by
        rw [hlength] at h
        have htwo : 2 ≤ outputSize := by decide
        omega
      obtain ⟨error, herror⟩ := decStr_take text hcut
      have htake : (encodeOuter (ToolReturn.ofText (.ok text))).take outputSize =
          0 :: 0 :: (Postcard.str.write text).take (outputSize - 2) := rfl
      rw [htake, decDoubleStrResult, decDoubleResult, decodeDoubleFrame_value] at heq
      dsimp only at heq
      rw [herror] at heq
      cases heq
    · refine iff_of_true ?_ ⟨h, trivial⟩
      have hwhole := decStr_write text []
      rw [append_nil] at hwhole
      have hframe : encodeOuter (ToolReturn.ofText (.ok text)) =
          0 :: 0 :: Postcard.str.write text := rfl
      rw [take_of_length_le h, hframe, decDoubleStrResult, decDoubleResult,
        decodeDoubleFrame_value]
      dsimp only
      rw [hwhole]
      rfl

/-- For all tools and all calls: a batch gets exactly its results if and only if the host can count
it and they are received, and a single call gets its value, its text or its message if and only if
the answer fits into the buffer and is readable. -/
theorem results_returned_iff (execute : ℕ → WireText → Blob → CallOutcome)
    (requests : Seq (WireText × Blob)) (run : WireText → Bytes → ToolReturn)
    (runText : WireText → Bytes → Except (DomainError ⊕ ToolError) WireText) (name : WireText)
    (args : Bytes) :
    (callMulti execute requests = some ((outcomes execute requests.1).map CallOutcome.result) ↔
      requests.1.length < 2 ^ 32 ∧
        Received (outputSize - (Protobuf.varint requests.1.length).length)
          (outcomes execute requests.1)) ∧
    ((callTool run name args).map decDoubleResult =
        some (CallOutcome.returned (run name args)).result ↔
      (encodeOuter (run name args)).length ≤ outputSize ∧
        (CallOutcome.returned (run name args)).Readable) ∧
    ((callTool (fun name args => ToolReturn.ofText (runText name args)) name args).map
        decDoubleStrResult = some (textResult (runText name args)) ↔
      (encodeOuter (ToolReturn.ofText (runText name args))).length ≤ outputSize ∧
        (CallOutcome.returned (ToolReturn.ofText (runText name args))).Readable) := by
  refine ⟨callMulti_iff execute requests, ?_, ?_⟩
  · rw [callTool_eq, map_some, some.injEq]
    exact decDoubleResult_iff (run name args)
  · rw [callTool_eq, map_some, some.injEq]
    exact decDoubleStrResult_iff (runText name args)

def failFirst (i : ℕ) (_ : WireText) (_ : Blob) : CallOutcome :=
  if i = 0 then .returned (.failed (.message ⟨"no such file", by decide⟩)) else .returned (.ok [])

/-- The result of a request that follows a failed one is lost, and the message of an error with
variants does not arrive. -/
theorem not_results_returned_failFirst :
    (¬ ∀ (execute : ℕ → WireText → Blob → CallOutcome) (requests : Seq (WireText × Blob)),
      callMulti execute requests = some ((outcomes execute requests.1).map CallOutcome.result)) ∧
    ¬ ∀ (execute : WireText → Bytes → ToolReturn) (name : WireText) (args : Bytes),
      (callTool execute name args).map decDoubleResult =
        some (CallOutcome.returned (execute name args)).result := by
  constructor
  · intro h
    have hreceived := ((callMulti_iff failFirst
      ⟨[(⟨"read_file", by decide⟩, ⟨[], by decide⟩), (⟨"find", by decide⟩, ⟨[], by decide⟩)],
        by decide⟩).1 (h _ _)).2
    change Received _ [CallOutcome.returned (.failed (.message ⟨"no such file", by decide⟩)),
      .returned (.ok [])] at hreceived
    rw [Received] at hreceived
    split_ifs at hreceived with hfits hok
    · cases hok
    · cases hreceived.1
    · cases hreceived.2.1
  · intro h
    have hmissing := h (fun _ _ => .failed (.db .noSessionContext)) ⟨"db_get", by decide⟩ []
    rw [callTool_eq, map_some, some.injEq, decDoubleResult_iff] at hmissing
    exact hmissing.2

end Choreo
