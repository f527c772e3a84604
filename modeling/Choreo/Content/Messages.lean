import Choreo.Library.Protobuf
import Choreo.Text

/-!
# The messages of the content protocol

An item on chain is a list of mixins, each an id and a payload (`choreo-content/src/encode.rs`).
The package that encodes messages is a parameter that reads back what it wrote. The encoding it
documents is given as an instance.
-/

namespace Choreo.Content

open List

/-! ### Messages -/

/-- A payload under the id of its mixin. -/
structure MixinPayloadMessage where
  mixinId : UInt32 := 0
  payload : Bytes := []
deriving DecidableEq, Repr

/-- An item: its mixins in order. -/
structure ItemMessage where
  mixinPayload : List MixinPayloadMessage := []
deriving DecidableEq, Repr

/-- A language tag. -/
structure LanguageMixinMessage where
  languageTag : String := ""
deriving DecidableEq, Repr

structure TitleMixinMessage where
  title : String := ""
deriving DecidableEq, Repr

structure BodyTextMixinMessage where
  bodyText : String := ""
deriving DecidableEq, Repr

/-- A mipmap level: its size and its hash. -/
structure MipmapLevelMessage where
  filesize : UInt64 := 0
  ipfsHash : Bytes := []
deriving DecidableEq, Repr

/-- An image and its mipmap levels. -/
structure ImageMixinMessage where
  filename : String := ""
  filesize : UInt64 := 0
  ipfsHash : Bytes := []
  width : UInt32 := 0
  height : UInt32 := 0
  mipmapLevel : List MipmapLevelMessage := []
deriving DecidableEq, Repr

/-- An account type and a location. -/
structure ProfileMixinMessage where
  accountType : Int32 := 0
  location : String := ""
deriving DecidableEq

/-! ### Encodings -/

/-- An encoding of messages that reads back what it wrote. -/
structure MessageCodec (M : Type) where
  encode : M → Bytes
  decode : Bytes → Except String M
  decode_encode : ∀ message, decode (encode message) = .ok message

/-- The package that encodes the messages. -/
structure Prost where
  item : MessageCodec ItemMessage
  language : MessageCodec LanguageMixinMessage
  title : MessageCodec TitleMixinMessage
  bodyText : MessageCodec BodyTextMixinMessage
  image : MessageCodec ImageMixinMessage
  profile : MessageCodec ProfileMixinMessage

open Protobuf

/-- Merges fields into a message, one after the other. -/
def mergeFields {M : Type} (merge : M → Field → Option M) (message : M) (fields : List Field) :
    Option M := fields.foldlM merge message

theorem mergeFields_append {M : Type} (merge : M → Field → Option M) {message next : M}
    {fields fields' : List Field} (h : mergeFields merge message fields = some next) :
    mergeFields merge message (fields ++ fields') = mergeFields merge next fields' := by
  rw [mergeFields, foldlM_append]
  change (mergeFields merge message fields).bind _ = _
  rw [h]
  rfl

def MessageCodec.ofFields {M : Type} (fields : M → List Field) (merge : M → Field → Option M)
    (default : M) (hfits : ∀ message, ∀ field ∈ fields message, field.2.Fits)
    (hmerge : ∀ message, mergeFields merge default (fields message) = some message) :
    MessageCodec M where
  encode message := Protobuf.encode (fields message)
  decode bytes :=
    match (Protobuf.decode bytes).bind (mergeFields merge default) with
    | none => .error "failed to decode Protobuf message"
    | some message => .ok message
  decode_encode message := by
    rw [Protobuf.decode_encode _ (hfits message), Option.bind_some, hmerge]

/-! ### Fields of the documented encoding -/

def utf8 (text : String) : Bytes := text.toByteArray.data.toList

theorem fromUtf8_utf8 (text : String) : fromUtf8 (utf8 text) = some text := by
  have hbytes : (⟨(utf8 text).toArray⟩ : ByteArray) = text.toByteArray := rfl
  rw [fromUtf8, hbytes, String.fromUTF8?, dif_pos text.isValidUTF8]
  rfl

/-- A text, unless it is empty. -/
def textField (number : ℕ) (text : String) : List Field :=
  if text = "" then [] else [(number, .bytes (utf8 text))]

/-- Bytes, unless there are none. -/
def bytesField (number : ℕ) (data : Bytes) : List Field :=
  if data = [] then [] else [(number, .bytes data)]

/-- A number, unless it is zero. -/
def numberField (number n : ℕ) : List Field := if n = 0 then [] else [(number, .varint n)]

theorem fits_textField {number : ℕ} {text : String} :
    ∀ field ∈ textField number text, field.2.Fits := by
  rw [textField]
  split_ifs <;> simp [Value.Fits]

theorem fits_bytesField {number : ℕ} {data : Bytes} :
    ∀ field ∈ bytesField number data, field.2.Fits := by
  rw [bytesField]
  split_ifs <;> simp [Value.Fits]

theorem fits_numberField {number n : ℕ} : ∀ field ∈ numberField number n, field.2.Fits := by
  rw [numberField]
  split_ifs <;> simp [Value.Fits]

section Merge

variable {M : Type} {merge : M → Field → Option M} {message next : M}

theorem mergeFields_text {number : ℕ} {text : String}
    (hfield : merge message (number, .bytes (utf8 text)) = some next)
    (hempty : text = "" → message = next) :
    mergeFields merge message (textField number text) = some next := by
  rw [textField]
  split_ifs with h
  · rw [hempty h]
    rfl
  · simp [mergeFields, hfield]

theorem mergeFields_bytes {number : ℕ} {data : Bytes}
    (hfield : merge message (number, .bytes data) = some next)
    (hempty : data = [] → message = next) :
    mergeFields merge message (bytesField number data) = some next := by
  rw [bytesField]
  split_ifs with h
  · rw [hempty h]
    rfl
  · simp [mergeFields, hfield]

theorem mergeFields_number {number n : ℕ}
    (hfield : merge message (number, .varint n) = some next)
    (hzero : n = 0 → message = next) :
    mergeFields merge message (numberField number n) = some next := by
  rw [numberField]
  split_ifs with h
  · rw [hzero h]
    rfl
  · simp [mergeFields, hfield]

theorem mergeFields_repeated {A : Type} {write : A → Field} {put : List A → M}
    (h : ∀ before a, merge (put before) (write a) = some (put (before ++ [a])))
    (before after : List A) :
    mergeFields merge (put before) (after.map write) = some (put (before ++ after)) := by
  induction after generalizing before with
  | nil => rw [append_nil]; rfl
  | cons a after ih =>
    have hnext := ih (before ++ [a])
    rw [append_assoc] at hnext
    rw [map_cons, mergeFields, foldlM_cons, h]
    exact hnext

end Merge

/-! ### The documented encoding -/

namespace Wire

def textMerge {M : Type} (make : String → M) (message : M) : Field → Option M
  | (1, .bytes data) => (fromUtf8 data).map make
  | (1, _) => none
  | _ => some message

def text {M : Type} (get : M → String) (make : String → M) (h : ∀ m, make (get m) = m) :
    MessageCodec M :=
  .ofFields (fun m => textField 1 (get m)) (textMerge make) (make "") (fun _ => fits_textField)
    fun m => mergeFields_text (by simp [textMerge, fromUtf8_utf8, h])
      fun hempty => by rw [← hempty, h]

/-- The id of a mixin, unless it is zero. -/
def idField (id : UInt32) : List Field := if id = 0 then [] else [(1, .fixed32 id.toNat)]

def mixinMerge (message : MixinPayloadMessage) : Field → Option MixinPayloadMessage
  | (1, .fixed32 n) => some { message with mixinId := UInt32.ofNat n }
  | (2, .bytes data) => some { message with payload := data }
  | (1, _) | (2, _) => none
  | _ => some message

theorem mergeFields_id (id : UInt32) : mergeFields mixinMerge {} (idField id) =
    some { mixinId := id } := by
  rw [idField]
  split_ifs with h
  · rw [h]
    rfl
  · simp [mergeFields, mixinMerge]

def mixin : MessageCodec MixinPayloadMessage :=
  .ofFields (fun m => idField m.mixinId ++ bytesField 2 m.payload) mixinMerge {}
    (fun m field hfield => by
      rcases mem_append.1 hfield with h | h
      · rw [idField] at h
        split_ifs at h
        · exact nomatch h
        · obtain rfl := mem_singleton.1 h
          exact m.mixinId.toNat_lt
      · exact fits_bytesField field h)
    fun m => by
      rw [mergeFields_append _ (mergeFields_id m.mixinId)]
      exact mergeFields_bytes rfl fun hempty => by rw [← hempty]

def itemMerge (message : ItemMessage) : Field → Option ItemMessage
  | (1, .bytes data) =>
    (mixin.decode data).toOption.map fun payload => ⟨message.mixinPayload ++ [payload]⟩
  | (1, _) => none
  | _ => some message

def item : MessageCodec ItemMessage :=
  .ofFields (fun m => m.mixinPayload.map fun payload => (1, .bytes (mixin.encode payload)))
    itemMerge {}
    (fun m field hfield => by
      obtain ⟨payload, -, rfl⟩ := mem_map.1 hfield
      exact trivial)
    fun m => mergeFields_repeated
      (fun before payload => by simp [itemMerge, mixin.decode_encode, Except.toOption])
      [] m.mixinPayload

def levelMerge (message : MipmapLevelMessage) : Field → Option MipmapLevelMessage
  | (1, .varint n) => some { message with filesize := UInt64.ofNat n }
  | (2, .bytes data) => some { message with ipfsHash := data }
  | (1, _) | (2, _) => none
  | _ => some message

/-- The encoding of a mipmap level. -/
def level : MessageCodec MipmapLevelMessage :=
  .ofFields (fun m => numberField 1 m.filesize.toNat ++ bytesField 2 m.ipfsHash) levelMerge {}
    (fun m field hfield => (mem_append.1 hfield).elim (fits_numberField field)
      (fits_bytesField field))
    fun m => by
      have hsize : mergeFields levelMerge {} (numberField 1 m.filesize.toNat) =
          some { filesize := m.filesize } :=
        mergeFields_number (by simp [levelMerge]) fun hzero => by
          have : m.filesize = 0 := UInt64.toNat_inj.1 hzero
          rw [this]
      rw [mergeFields_append _ hsize]
      exact mergeFields_bytes rfl fun hempty => by rw [← hempty]

def imageMerge (message : ImageMixinMessage) : Field → Option ImageMixinMessage
  | (1, .bytes data) => (fromUtf8 data).map fun text => { message with filename := text }
  | (2, .varint n) => some { message with filesize := UInt64.ofNat n }
  | (3, .bytes data) => some { message with ipfsHash := data }
  | (4, .varint n) => some { message with width := UInt32.ofNat n }
  | (5, .varint n) => some { message with height := UInt32.ofNat n }
  | (6, .bytes data) =>
    (level.decode data).toOption.map fun mipmap =>
      { message with mipmapLevel := message.mipmapLevel ++ [mipmap] }
  | (1, _) | (2, _) | (3, _) | (4, _) | (5, _) | (6, _) => none
  | _ => some message

variable (m : ImageMixinMessage)

def imageFields : List Field :=
  textField 1 m.filename ++ (numberField 2 m.filesize.toNat ++ (bytesField 3 m.ipfsHash ++
    (numberField 4 m.width.toNat ++ (numberField 5 m.height.toNat ++
      m.mipmapLevel.map fun mipmap => (6, .bytes (level.encode mipmap))))))

theorem fits_imageFields : ∀ field ∈ imageFields m, field.2.Fits := by
  intro field hfield
  simp only [imageFields, mem_append, mem_map] at hfield
  rcases hfield with h | h | h | h | h | ⟨mipmap, -, rfl⟩
  · exact fits_textField field h
  · exact fits_numberField field h
  · exact fits_bytesField field h
  · exact fits_numberField field h
  · exact fits_numberField field h
  · exact trivial

theorem mergeFields_imageFields :
    mergeFields imageMerge {} (imageFields m) = some m := by
  have hname : mergeFields imageMerge {} (textField 1 m.filename) =
      some { filename := m.filename } :=
    mergeFields_text (by simp [imageMerge, fromUtf8_utf8]) fun hempty => by rw [hempty]
  have hsize : mergeFields imageMerge { filename := m.filename }
      (numberField 2 m.filesize.toNat) =
        some { filename := m.filename, filesize := m.filesize } :=
    mergeFields_number (by simp [imageMerge]) fun hzero => by
      have : m.filesize = 0 := UInt64.toNat_inj.1 hzero
      rw [this]
  have hhash : mergeFields imageMerge { filename := m.filename, filesize := m.filesize }
      (bytesField 3 m.ipfsHash) =
        some { filename := m.filename, filesize := m.filesize, ipfsHash := m.ipfsHash } :=
    mergeFields_bytes rfl fun hempty => by rw [hempty]
  have hwidth : mergeFields imageMerge
      { filename := m.filename, filesize := m.filesize, ipfsHash := m.ipfsHash }
      (numberField 4 m.width.toNat) =
        some { filename := m.filename, filesize := m.filesize, ipfsHash := m.ipfsHash,
               width := m.width } :=
    mergeFields_number (by simp [imageMerge]) fun hzero => by
      have : m.width = 0 := UInt32.toNat_inj.1 hzero
      rw [this]
  have hheight : mergeFields imageMerge
      { filename := m.filename, filesize := m.filesize, ipfsHash := m.ipfsHash, width := m.width }
      (numberField 5 m.height.toNat) =
        some { filename := m.filename, filesize := m.filesize, ipfsHash := m.ipfsHash,
               width := m.width, height := m.height } :=
    mergeFields_number (by simp [imageMerge]) fun hzero => by
      have : m.height = 0 := UInt32.toNat_inj.1 hzero
      rw [this]
  rw [imageFields, mergeFields_append _ hname, mergeFields_append _ hsize,
    mergeFields_append _ hhash, mergeFields_append _ hwidth, mergeFields_append _ hheight]
  exact @mergeFields_repeated _ imageMerge _ _ (fun levels => { m with mipmapLevel := levels })
    (fun before mipmap => by simp [imageMerge, level.decode_encode, Except.toOption])
    [] m.mipmapLevel

def image : MessageCodec ImageMixinMessage :=
  .ofFields imageFields imageMerge {} fits_imageFields mergeFields_imageFields

/-- The merging of a profile. Negative numbers are written in 64 bits. -/
def profileMerge (message : ProfileMixinMessage) : Field → Option ProfileMixinMessage
  | (1, .varint n) => some { message with accountType := Int32.ofInt n }
  | (2, .bytes data) => (fromUtf8 data).map fun text => { message with location := text }
  | (1, _) | (2, _) => none
  | _ => some message

def profile : MessageCodec ProfileMixinMessage :=
  .ofFields
    (fun m => numberField 1 (m.accountType.toInt % 2 ^ 64).toNat ++ textField 2 m.location)
    profileMerge {}
    (fun m field hfield => (mem_append.1 hfield).elim (fits_numberField field)
      (fits_textField field))
    fun m => by
      have hlow := m.accountType.le_toInt
      have hhigh := m.accountType.toInt_lt
      have hwrap : Int32.ofInt ((m.accountType.toInt % 2 ^ 64).toNat : ℕ) = m.accountType := by
        have hsize : Int32.size = 2 ^ 32 := rfl
        rw [← Int32.toInt_inj, Int32.toInt_ofInt, Int.bmod, hsize]
        omega
      have htype : mergeFields profileMerge {}
          (numberField 1 (m.accountType.toInt % 2 ^ 64).toNat) =
            some { accountType := m.accountType } :=
        mergeFields_number (by rw [profileMerge, hwrap]) fun hzero => by
          rw [hzero] at hwrap
          rw [← hwrap]
          rfl
      rw [mergeFields_append _ htype]
      exact mergeFields_text (by simp [profileMerge, fromUtf8_utf8])
        fun hempty => by rw [← hempty]

end Wire

/-- The documented encoding. -/
def Prost.wire : Prost where
  item := Wire.item
  language := Wire.text LanguageMixinMessage.languageTag LanguageMixinMessage.mk fun _ => rfl
  title := Wire.text TitleMixinMessage.title TitleMixinMessage.mk fun _ => rfl
  bodyText := Wire.text BodyTextMixinMessage.bodyText BodyTextMixinMessage.mk fun _ => rfl
  image := Wire.image
  profile := Wire.profile

end Choreo.Content
