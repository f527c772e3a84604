import Choreo.Library.Digits
import Choreo.Content.Messages

/-!
# Content items

The encoding of a content item as mixins and its decoding (`choreo-content/src/encode.rs`). The
type of an item is not stored. It is read off the mixins that are there: a marker, a profile or an
image. A declared type is therefore kept only where it is the type that the parts imply.
-/

namespace Choreo.Content

open List Option

/-! ### Items -/

inductive ContentType
  | document
  | feed
  | comment
  | profile
  | image
deriving DecidableEq, Repr

/-- A mipmap level: its size and its CID. -/
structure MipmapLevel where
  filesize : UInt64
  cid : String
deriving DecidableEq, Repr

/-- An image reference. -/
structure ImageSpec where
  filename : String
  filesize : UInt64
  digestHex : String
  width : UInt32
  height : UInt32
  mipmapLevels : List MipmapLevel
deriving DecidableEq, Repr

structure ProfileSpec where
  accountType : Int32
  location : String
deriving DecidableEq

structure PreparedContent where
  contentType : ContentType := .document
  title : Option String := none
  body : Option String := none
  language : Option String := none
  image : Option ImageSpec := none
  profile : Option ProfileSpec := none
deriving DecidableEq

structure DecodedItem where
  contentType : ContentType := .document
  title : Option String := none
  body : Option String := none
  language : Option String := none
  image : Option ImageSpec := none
  profile : Option ProfileSpec := none
deriving DecidableEq

/-- The errors of the two functions. -/
inductive ContentError
  | content (message : String)
  | cid (message : String)
deriving DecidableEq, Repr

/-! ### Hexadecimal digits and CIDs -/

/-- Removes every `0x` from the beginning. -/
def trimHexStart : List Char → List Char
  | '0' :: 'x' :: rest => trimHexStart rest
  | text => text

/-- Bytes as hexadecimal digits after `0x`. -/
def bytesToHex (bytes : Bytes) : String := String.ofList ('0' :: 'x' :: Hex.encode bytes)

/-- The 32 bytes of hexadecimal digits. -/
def hexToBytes (hexValue : String) : Except ContentError Bytes :=
  match Hex.decode (trimHexStart hexValue.toList) with
  | none => .error (.cid ("invalid hex value " ++ hexValue))
  | some raw =>
    if raw.length = 32 then .ok raw else .error (.cid ("expected 32 bytes for " ++ hexValue))

/-- The beginning of the multihash of a sha2-256 digest. -/
def multihashHeader : Bytes := [0x12, 0x20]

variable (cid : String)

/-- The digest of a CID in hexadecimal digits. -/
def cidToDigestHex : Except ContentError String :=
  match Base58.decode cid.toList with
  | none => .error (.cid ("failed to decode CID " ++ cid))
  | some multihash =>
    if multihash.length ≠ 34 ∨ multihash.take 2 ≠ multihashHeader then
      .error (.cid ("CID " ++ cid ++ " is not a sha2-256 CIDv0 multihash"))
    else .ok (bytesToHex (multihash.drop 2))

/-- The multihash of a digest in hexadecimal digits. -/
def multihashBytes (hexValue : String) : Except ContentError Bytes :=
  match hexToBytes hexValue with
  | .error e => .error e
  | .ok digest => .ok (multihashHeader ++ digest)

def cidToDigestBytes : Except ContentError Bytes :=
  match cidToDigestHex cid with
  | .error e => .error e
  | .ok digestHex => hexToBytes digestHex

def cidToMultihashBytes : Except ContentError Bytes :=
  match cidToDigestBytes cid with
  | .error e => .error e
  | .ok digest => .ok (multihashHeader ++ digest)

def bytesToCid (digest : Bytes) : String :=
  String.ofList (Base58.encode (multihashHeader ++ digest))

/-- The digest in a hash field: the header of a multihash is removed. -/
def digestFromBytes (bytes : Bytes) : Bytes :=
  if bytes.length = 34 ∧ bytes.take 2 = multihashHeader then bytes.drop 2 else bytes

/-! ### Encoding and decoding -/

def languageMixinId : UInt32 := 0x9bc7a0e6
def titleMixinId : UInt32 := 0x344f4812
def bodyTextMixinId : UInt32 := 0x2d382044
def imageMixinId : UInt32 := 0x045eee8c
def profileMixinId : UInt32 := 0xbeef2144
def feedTypeMixinId : UInt32 := 0xbcec8faa
def commentTypeMixinId : UInt32 := 0x874aba65

/-- The language of an item that names none. -/
def defaultLanguageTag : String := "en"

variable (prost : Prost)

/-- A mixin without payload. -/
def marker (mixinId : UInt32) : MixinPayloadMessage := { mixinId, payload := [] }

def encodeLevel (level : MipmapLevel) : Except ContentError MipmapLevelMessage :=
  match cidToMultihashBytes level.cid with
  | .error e => .error e
  | .ok ipfsHash => .ok { filesize := level.filesize, ipfsHash }

variable (image : ImageSpec)

/-- The payload of an image: the levels are looked at first, then the digest. -/
def encodeImageMixin : Except ContentError Bytes :=
  match image.mipmapLevels.mapM encodeLevel with
  | .error e => .error e
  | .ok mipmapLevel =>
    match multihashBytes image.digestHex with
    | .error e => .error e
    | .ok ipfsHash =>
      .ok (prost.image.encode
        { filename := image.filename
          filesize := image.filesize
          ipfsHash
          width := image.width
          height := image.height
          mipmapLevel })

def decodeImageMixin (message : ImageMixinMessage) : ImageSpec where
  filename := message.filename
  filesize := message.filesize
  digestHex := bytesToHex (digestFromBytes message.ipfsHash)
  width := message.width
  height := message.height
  mipmapLevels := message.mipmapLevel.map fun level =>
    { filesize := level.filesize, cid := bytesToCid (digestFromBytes level.ipfsHash) }

def typeMixins : ContentType → List MixinPayloadMessage
  | .feed => [marker feedTypeMixinId]
  | .comment => [marker commentTypeMixinId]
  | .document | .profile | .image => []

def languageMixin (languageTag : String) : MixinPayloadMessage where
  mixinId := languageMixinId
  payload := prost.language.encode { languageTag }

variable (title : Option String)

def titleMixins : List MixinPayloadMessage :=
  title.toList.map fun title => { mixinId := titleMixinId, payload := prost.title.encode { title } }

variable (body : Option String)

def bodyMixins : List MixinPayloadMessage :=
  body.toList.map fun body =>
    { mixinId := bodyTextMixinId, payload := prost.bodyText.encode { bodyText := body } }

def imageMixins : Option ImageSpec → Except ContentError (List MixinPayloadMessage)
  | none => .ok []
  | some image =>
    match encodeImageMixin prost image with
    | .error e => .error e
    | .ok payload => .ok [{ mixinId := imageMixinId, payload }]

variable (profile : Option ProfileSpec)

def profileMixins : List MixinPayloadMessage :=
  profile.toList.map fun profile =>
    { mixinId := profileMixinId
      payload := prost.profile.encode
        { accountType := profile.accountType, location := profile.location } }

def encodeItem (input : PreparedContent) : Except ContentError Bytes :=
  match imageMixins prost input.image with
  | .error e => .error e
  | .ok image =>
    .ok (prost.item.encode
      { mixinPayload :=
          typeMixins input.contentType ++
            languageMixin prost (input.language.getD defaultLanguageTag) ::
              (titleMixins prost input.title ++ (bodyMixins prost input.body ++
                (image ++ profileMixins prost input.profile))) })

def markedType : List MixinPayloadMessage → Option ContentType
  | [] => none
  | mixin :: rest =>
    if mixin.mixinId = feedTypeMixinId then some .feed
    else if mixin.mixinId = commentTypeMixinId then some .comment
    else if mixin.mixinId = profileMixinId then some .profile
    else markedType rest

def inferContentType (item : ItemMessage) : ContentType :=
  match markedType item.mixinPayload with
  | some contentType => contentType
  | none =>
    if item.mixinPayload.any (·.mixinId = imageMixinId) then .image else .document

variable (out : DecodedItem)

/-- Takes over what a mixin says. A payload that does not decode removes its field, a mixin with
another id is ignored. -/
def decodeMixin (mixin : MixinPayloadMessage) : DecodedItem :=
  if mixin.mixinId = languageMixinId then
    { out with language := (prost.language.decode mixin.payload).toOption.map (·.languageTag) }
  else if mixin.mixinId = titleMixinId then
    { out with title := (prost.title.decode mixin.payload).toOption.map (·.title) }
  else if mixin.mixinId = bodyTextMixinId then
    { out with body := (prost.bodyText.decode mixin.payload).toOption.map (·.bodyText) }
  else if mixin.mixinId = imageMixinId then
    { out with image := (prost.image.decode mixin.payload).toOption.map decodeImageMixin }
  else if mixin.mixinId = profileMixinId then
    { out with
      profile := (prost.profile.decode mixin.payload).toOption.map fun message =>
        { accountType := message.accountType, location := message.location } }
  else out

def decodeItem (bytes : Bytes) : Except ContentError DecodedItem :=
  match prost.item.decode bytes with
  | .error e => .error (.content ("failed to decode item payload: " ++ e))
  | .ok item =>
    .ok (item.mixinPayload.foldl (decodeMixin prost) { contentType := inferContentType item })

/-! ### What an item should be -/

/-- A digest: 32 bytes in hexadecimal digits, possibly after `0x`. -/
def IsDigestHex (text : String) : Prop :=
  ∃ digest : Bytes, digest.length = 32 ∧ Hex.decode (trimHexStart text.toList) = some digest

def IsCidV0 : Prop :=
  ∃ digest : Bytes, digest.length = 32 ∧
    Base58.decode cid.toList = some (multihashHeader ++ digest)

/-- An image whose digest and CIDs can be stored. -/
def ImageSpec.WellFormed : Prop :=
  IsDigestHex image.digestHex ∧ ∀ level ∈ image.mipmapLevels, IsCidV0 level.cid

def ImageSpec.normalized : ImageSpec :=
  { image with
    digestHex :=
      String.ofList ('0' :: 'x' :: (trimHexStart image.digestHex.toList).map Char.toLower) }

/-- The type that the parts of an item imply. -/
def impliedType (declared : ContentType) (image : Option ImageSpec)
    (profile : Option ProfileSpec) : ContentType :=
  if declared = .feed ∨ declared = .comment then declared
  else if profile.isSome then .profile
  else if image.isSome then .image
  else .document

/-- What a reader of the item gets. -/
def PreparedContent.published (input : PreparedContent) : DecodedItem where
  contentType := impliedType input.contentType input.image input.profile
  title := input.title
  body := input.body
  language := some (input.language.getD defaultLanguageTag)
  image := input.image.map ImageSpec.normalized
  profile := input.profile

variable (item : DecodedItem)

/-- An item as it is published again. -/
def DecodedItem.prepared : PreparedContent where
  contentType := item.contentType
  title := item.title
  body := item.body
  language := item.language
  image := item.image
  profile := item.profile

/-- An item that publishing again does not change: it names its language, its type is the one its
parts imply, and its image can be stored and is written as decoding writes it. -/
def DecodedItem.Stable : Prop :=
  item.language.isSome ∧ item.contentType = impliedType item.contentType item.image item.profile ∧
    ∀ image ∈ item.image, image.WellFormed ∧ image.normalized = image

/-! ### Hashes -/

theorem trimHexStart_encode (bytes : Bytes) : trimHexStart (Hex.encode bytes) = Hex.encode bytes := by
  rcases bytes with _ | ⟨b, bytes⟩
  · rfl
  · have hdigit : ∀ d < 16, Hex.digit d ≠ 'x' := by decide
    have hlow := hdigit (b.toNat % 16) (by omega)
    rw [Hex.encode, flatMap_cons, cons_append, cons_append, trimHexStart]
    rintro rest h
    exact absurd (cons.inj (cons.inj h).2).1 hlow

variable {digest : Bytes}

theorem hexToBytes_eq_ok {text : String} :
    hexToBytes text = .ok digest ↔
      digest.length = 32 ∧ Hex.decode (trimHexStart text.toList) = some digest := by
  rw [hexToBytes]
  rcases h : Hex.decode (trimHexStart text.toList) with _ | raw
  · simp
  · by_cases hraw : raw.length = 32
    · simp only [hraw, if_true, Except.ok.injEq, some.injEq]
      constructor
      · rintro rfl
        exact ⟨hraw, rfl⟩
      · exact fun h => h.2
    · simp only [hraw, if_false, reduceCtorEq, some.injEq, false_iff, not_and]
      rintro hlen rfl
      exact hraw hlen

/-- Writing a digest and reading it back. -/
theorem hexToBytes_bytesToHex (h : digest.length = 32) :
    hexToBytes (bytesToHex digest) = .ok digest := by
  rw [hexToBytes_eq_ok, bytesToHex, String.toList_ofList, trimHexStart, trimHexStart_encode]
  exact ⟨h, Hex.decode_encode digest⟩

theorem bytesToHex_of_decode {text : String}
    (h : Hex.decode (trimHexStart text.toList) = some digest) :
    bytesToHex digest =
      String.ofList ('0' :: 'x' :: (trimHexStart text.toList).map Char.toLower) := by
  rw [bytesToHex, Hex.encode_of_decode h]

theorem digestFromBytes_header (h : digest.length = 32) :
    digestFromBytes (multihashHeader ++ digest) = digest := by
  rw [digestFromBytes, if_pos]
  · rfl
  · exact ⟨by rw [length_append, h]; rfl, rfl⟩

theorem bytesToCid_of_decode {cid : String}
    (h : Base58.decode cid.toList = some (multihashHeader ++ digest)) : bytesToCid digest = cid := by
  rw [bytesToCid, Base58.encode_of_decode h, String.ofList_toList]

theorem cidToMultihashBytes_eq_ok {cid : String} {multihash : Bytes} :
    cidToMultihashBytes cid = .ok multihash ↔
      ∃ digest : Bytes, digest.length = 32 ∧
        Base58.decode cid.toList = some (multihashHeader ++ digest) ∧
          multihash = multihashHeader ++ digest := by
  rw [cidToMultihashBytes, cidToDigestBytes, cidToDigestHex]
  rcases h : Base58.decode cid.toList with _ | raw
  · simp
  · by_cases hraw : raw.length = 34 ∧ raw.take 2 = multihashHeader
    · have hlen : (raw.drop 2).length = 32 := by rw [length_drop]; omega
      have hsplit : raw = multihashHeader ++ raw.drop 2 := by
        rw [← hraw.2, take_append_drop]
      have hnot : ¬ (raw.length ≠ 34 ∨ raw.take 2 ≠ multihashHeader) := by tauto
      simp only [if_neg hnot, hexToBytes_bytesToHex hlen, Except.ok.injEq]
      constructor
      · rintro rfl
        exact ⟨raw.drop 2, hlen, by rw [← hsplit], rfl⟩
      · rintro ⟨digest, -, hdigest, rfl⟩
        rw [← hdigest.symm.trans (congrArg some hsplit) |> some.inj]
    · have hor : raw.length ≠ 34 ∨ raw.take 2 ≠ multihashHeader := by tauto
      simp only [if_pos hor, reduceCtorEq, some.injEq, false_iff, not_exists]
      rintro digest ⟨hlen, rfl, -⟩
      exact hraw ⟨by rw [length_append, hlen]; rfl, rfl⟩

/-! ### Images -/

def decodeLevel (message : MipmapLevelMessage) : MipmapLevel where
  filesize := message.filesize
  cid := bytesToCid (digestFromBytes message.ipfsHash)

theorem encodeLevel_of_isCidV0 {level : MipmapLevel} (h : IsCidV0 level.cid) :
    ∃ message, encodeLevel level = .ok message ∧ decodeLevel message = level := by
  obtain ⟨digest, hlen, hcid⟩ := h
  have hhash : cidToMultihashBytes level.cid = .ok (multihashHeader ++ digest) :=
    cidToMultihashBytes_eq_ok.2 ⟨digest, hlen, hcid, rfl⟩
  refine ⟨_, by rw [encodeLevel, hhash], ?_⟩
  rw [decodeLevel, digestFromBytes_header hlen, bytesToCid_of_decode hcid]

theorem isCidV0_of_encodeLevel {level : MipmapLevel} {message : MipmapLevelMessage}
    (h : encodeLevel level = .ok message) : IsCidV0 level.cid := by
  rw [encodeLevel] at h
  rcases hhash : cidToMultihashBytes level.cid with e | multihash
  · simp [hhash] at h
  · obtain ⟨digest, hlen, hcid, -⟩ := cidToMultihashBytes_eq_ok.1 hhash
    exact ⟨digest, hlen, hcid⟩

theorem encodeLevels_of_isCidV0 (levels : List MipmapLevel)
    (h : ∀ level ∈ levels, IsCidV0 level.cid) :
    ∃ messages, levels.mapM encodeLevel = .ok messages ∧ messages.map decodeLevel = levels := by
  induction levels with
  | nil => exact ⟨[], rfl, rfl⟩
  | cons level levels ih =>
    obtain ⟨message, hencode, hdecode⟩ := encodeLevel_of_isCidV0 (h level mem_cons_self)
    obtain ⟨messages, hencodes, hdecodes⟩ := ih fun l hl => h l (mem_cons_of_mem _ hl)
    refine ⟨message :: messages, ?_, by rw [map_cons, hdecode, hdecodes]⟩
    rw [mapM_cons, hencode, hencodes]
    rfl

theorem isCidV0_of_encodeLevels {levels : List MipmapLevel} {messages : List MipmapLevelMessage}
    (h : levels.mapM encodeLevel = .ok messages) : ∀ level ∈ levels, IsCidV0 level.cid := by
  induction levels generalizing messages with
  | nil => simp
  | cons level levels ih =>
    rw [mapM_cons] at h
    rcases hlevel : encodeLevel level with e | message
    · rw [hlevel] at h
      exact nomatch h
    · rcases hlevels : levels.mapM encodeLevel with e | messages
      · rw [hlevel, hlevels] at h
        exact nomatch h
      · rintro l (_ | ⟨_, hl⟩)
        · exact isCidV0_of_encodeLevel hlevel
        · exact ih hlevels l hl

variable {prost}

theorem encodeImageMixin_of_wellFormed {image : ImageSpec} (h : image.WellFormed) :
    ∃ payload, encodeImageMixin prost image = .ok payload ∧
      (prost.image.decode payload).toOption.map decodeImageMixin = some image.normalized := by
  obtain ⟨⟨digest, hlen, hdigest⟩, hlevels⟩ := h
  obtain ⟨messages, hencode, hdecode⟩ := encodeLevels_of_isCidV0 image.mipmapLevels hlevels
  have hhash : multihashBytes image.digestHex = .ok (multihashHeader ++ digest) := by
    rw [multihashBytes, hexToBytes_eq_ok.2 ⟨hlen, hdigest⟩]
  refine ⟨_, by rw [encodeImageMixin, hencode, hhash], ?_⟩
  rw [prost.image.decode_encode, Except.toOption, map_some, decodeImageMixin,
    digestFromBytes_header hlen, bytesToHex_of_decode hdigest, ImageSpec.normalized]
  exact congrArg some (congrArg (ImageSpec.mk _ _ _ _ _) hdecode)

theorem wellFormed_of_encodeImageMixin {image : ImageSpec} {payload : Bytes}
    (h : encodeImageMixin prost image = .ok payload) : image.WellFormed := by
  rw [encodeImageMixin] at h
  rcases hlevels : image.mipmapLevels.mapM encodeLevel with e | messages
  · simp [hlevels] at h
  · rcases hdigest : hexToBytes image.digestHex with e | digest
    · simp [hlevels, multihashBytes, hdigest] at h
    · exact ⟨⟨digest, hexToBytes_eq_ok.1 hdigest⟩, isCidV0_of_encodeLevels hlevels⟩

/-! ### The parts of an item -/

/-- The mixins of an item whose image is stored by given mixins. -/
def itemMixins (prost : Prost) (input : PreparedContent) (image : List MixinPayloadMessage) :
    List MixinPayloadMessage :=
  typeMixins input.contentType ++
    languageMixin prost (input.language.getD defaultLanguageTag) ::
      (titleMixins prost input.title ++ (bodyMixins prost input.body ++
        (image ++ profileMixins prost input.profile)))

theorem markedType_append_of_none {mixins rest : List MixinPayloadMessage}
    (h : markedType mixins = none) : markedType (mixins ++ rest) = markedType rest := by
  induction mixins with
  | nil => rfl
  | cons mixin mixins ih =>
    rw [markedType] at h
    split_ifs at h with hfeed hcomment hprofile
    rw [cons_append, markedType, if_neg hfeed, if_neg hcomment, if_neg hprofile, ih h]

/-- A mixin that is neither a marker nor a profile. -/
theorem markedType_of_ne (mixinId : UInt32) (payload : Bytes) (hfeed : mixinId ≠ feedTypeMixinId)
    (hcomment : mixinId ≠ commentTypeMixinId) (hprofile : mixinId ≠ profileMixinId) :
    markedType [{ mixinId, payload }] = none := by
  rw [markedType, if_neg hfeed, if_neg hcomment, if_neg hprofile, markedType]

theorem markedType_title : markedType (titleMixins prost title) = none := by
  rcases title with _ | title
  · rfl
  · exact markedType_of_ne titleMixinId _ (by decide) (by decide) (by decide)

theorem markedType_body : markedType (bodyMixins prost body) = none := by
  rcases body with _ | body
  · rfl
  · exact markedType_of_ne bodyTextMixinId _ (by decide) (by decide) (by decide)

theorem markedType_profile :
    markedType (profileMixins prost profile) = if profile.isSome then some .profile else none := by
  rcases profile with _ | profile <;> rfl

variable {image : Option ImageSpec} {mixins : List MixinPayloadMessage}

theorem imageMixins_cases
    (h : imageMixins prost image = .ok mixins) :
    (image = none ∧ mixins = []) ∨
      ∃ spec payload, image = some spec ∧ encodeImageMixin prost spec = .ok payload ∧
        mixins = [{ mixinId := imageMixinId, payload }] := by
  rcases image with _ | spec
  · exact .inl ⟨rfl, (Except.ok.inj h).symm⟩
  · rw [imageMixins] at h
    rcases hspec : encodeImageMixin prost spec with e | payload
    · simp [hspec] at h
    · simp only [hspec, Except.ok.injEq] at h
      exact .inr ⟨spec, payload, rfl, hspec, h.symm⟩

theorem markedType_image
    (h : imageMixins prost image = .ok mixins) : markedType mixins = none := by
  rcases imageMixins_cases h with ⟨-, rfl⟩ | ⟨spec, payload, -, -, rfl⟩
  · rfl
  · exact markedType_of_ne imageMixinId _ (by decide) (by decide) (by decide)

variable {input : PreparedContent}

theorem inferContentType_itemMixins {image : List MixinPayloadMessage}
    (h : imageMixins prost input.image = .ok image) :
    inferContentType { mixinPayload := itemMixins prost input image } =
      impliedType input.contentType input.image input.profile := by
  have hparts : markedType (languageMixin prost (input.language.getD defaultLanguageTag) ::
      (titleMixins prost input.title ++ (bodyMixins prost input.body ++
        (image ++ profileMixins prost input.profile)))) =
      if input.profile.isSome then some .profile else none := by
    have hlanguage : markedType [languageMixin prost (input.language.getD defaultLanguageTag)] =
        none := markedType_of_ne languageMixinId _ (by decide) (by decide) (by decide)
    rw [← singleton_append, markedType_append_of_none hlanguage,
      markedType_append_of_none (markedType_title _), markedType_append_of_none (markedType_body _),
      markedType_append_of_none (markedType_image h), markedType_profile]
  have hplain (hfeed : input.contentType ≠ .feed) (hcomment : input.contentType ≠ .comment) :
      typeMixins input.contentType = [] := by
    rcases hdeclared : input.contentType <;> simp_all [typeMixins]
  rw [inferContentType, itemMixins]
  by_cases hfeed : input.contentType = .feed
  · simp [hfeed, typeMixins, marker, markedType, impliedType]
  by_cases hcomment : input.contentType = .comment
  · simp [hcomment, typeMixins, marker, markedType, impliedType, show
      commentTypeMixinId ≠ feedTypeMixinId from by decide]
  rw [hplain hfeed hcomment, nil_append, hparts, impliedType,
    if_neg (not_or.2 ⟨hfeed, hcomment⟩)]
  by_cases hprofile : input.profile.isSome
  · rw [if_pos hprofile, if_pos hprofile]
  · rw [if_neg hprofile, if_neg hprofile]
    have hnone : input.profile = none := by simpa using hprofile
    have himage : (languageMixin prost (input.language.getD defaultLanguageTag) ::
        (titleMixins prost input.title ++ (bodyMixins prost input.body ++
          (image ++ profileMixins prost input.profile)))).any (·.mixinId = imageMixinId) =
        input.image.isSome := by
      have htitle : (titleMixins prost input.title).any (·.mixinId = imageMixinId) = false := by
        rcases input.title with _ | title <;> rfl
      have hbody : (bodyMixins prost input.body).any (·.mixinId = imageMixinId) = false := by
        rcases input.body with _ | body <;> rfl
      have hlanguage : languageMixinId ≠ imageMixinId := by decide
      rcases imageMixins_cases h with ⟨himage, rfl⟩ | ⟨spec, payload, himage, -, rfl⟩ <;>
        simp [himage, hnone, htitle, hbody, hlanguage, languageMixin, profileMixins]
    simp only [himage]

theorem decodeMixin_language (languageTag : String) :
    decodeMixin prost out (languageMixin prost languageTag) =
      { out with language := some languageTag } := by
  simp [decodeMixin, languageMixin, prost.language.decode_encode, Except.toOption]

theorem foldl_titleMixins (h : out.title = none) :
    (titleMixins prost title).foldl (decodeMixin prost) out = { out with title } := by
  rcases title with _ | title
  · change out = { out with title := none }
    rw [← h]
  · have hlanguage : titleMixinId ≠ languageMixinId := by decide
    simp [titleMixins, decodeMixin, hlanguage, prost.title.decode_encode, Except.toOption]

theorem foldl_bodyMixins (h : out.body = none) :
    (bodyMixins prost body).foldl (decodeMixin prost) out = { out with body } := by
  rcases body with _ | body
  · change out = { out with body := none }
    rw [← h]
  · have hlanguage : bodyTextMixinId ≠ languageMixinId := by decide
    have htitle : bodyTextMixinId ≠ titleMixinId := by decide
    simp [bodyMixins, decodeMixin, hlanguage, htitle, prost.bodyText.decode_encode,
      Except.toOption]

theorem foldl_imageMixins
    (hmixins : imageMixins prost image = .ok mixins)
    (h : out.image = none) :
    mixins.foldl (decodeMixin prost) out =
      { out with image := image.map ImageSpec.normalized } := by
  rcases imageMixins_cases hmixins with ⟨rfl, rfl⟩ | ⟨spec, payload, rfl, hpayload, rfl⟩
  · rw [map_none, ← h]
    rfl
  · obtain ⟨_, hencode, hdecode⟩ :=
      @encodeImageMixin_of_wellFormed prost _ (wellFormed_of_encodeImageMixin hpayload)
    obtain rfl := Except.ok.inj (hpayload.symm.trans hencode)
    have hlanguage : imageMixinId ≠ languageMixinId := by decide
    have htitle : imageMixinId ≠ titleMixinId := by decide
    have hbody : imageMixinId ≠ bodyTextMixinId := by decide
    simp only [foldl_cons, foldl_nil, decodeMixin, hlanguage, htitle, hbody, if_false,
      if_true, hdecode, map_some]

theorem foldl_profileMixins
    (h : out.profile = none) :
    (profileMixins prost profile).foldl (decodeMixin prost) out = { out with profile } := by
  rcases profile with _ | profile
  · change out = { out with profile := none }
    rw [← h]
  · have hlanguage : profileMixinId ≠ languageMixinId := by decide
    have htitle : profileMixinId ≠ titleMixinId := by decide
    have hbody : profileMixinId ≠ bodyTextMixinId := by decide
    have himage : profileMixinId ≠ imageMixinId := by decide
    simp [profileMixins, decodeMixin, hlanguage, htitle, hbody, himage,
      prost.profile.decode_encode, Except.toOption]

/-- Reading the mixins of an item one after the other. -/
theorem foldl_itemMixins {image : List MixinPayloadMessage}
    (h : imageMixins prost input.image = .ok image) (contentType : ContentType) :
    (itemMixins prost input image).foldl (decodeMixin prost) { contentType } =
      { input.published with contentType } := by
  have hmarker : (typeMixins input.contentType).foldl (decodeMixin prost) { contentType } =
      { contentType } := by
    rcases input.contentType <;> rfl
  rw [itemMixins, foldl_append, hmarker, foldl_cons, decodeMixin_language,
    foldl_append, foldl_titleMixins _ _ rfl, foldl_append, foldl_bodyMixins _ _ rfl,
    foldl_append, foldl_imageMixins _ h rfl, foldl_profileMixins _ _ rfl]
  rfl

/-! ### Round trips -/

theorem encodeItem_isOk_iff :
    (∃ bytes, encodeItem prost input = .ok bytes) ↔ ∀ image ∈ input.image, image.WellFormed := by
  rw [encodeItem]
  rcases himage : input.image with _ | image
  · simp [imageMixins]
  · rcases hencode : encodeImageMixin prost image with e | payload
    · simp only [imageMixins, hencode, reduceCtorEq, exists_false, mem_def,
        some.injEq, forall_eq', false_iff]
      intro hwell
      obtain ⟨payload, hpayload, -⟩ := @encodeImageMixin_of_wellFormed prost _ hwell
      exact absurd (hencode.symm.trans hpayload) (by simp)
    · simp [imageMixins, hencode, wellFormed_of_encodeImageMixin hencode]

theorem decodeItem_encodeItem {bytes : Bytes}
    (h : encodeItem prost input = .ok bytes) : decodeItem prost bytes = .ok input.published := by
  rw [encodeItem] at h
  rcases himage : imageMixins prost input.image with e | image
  · simp [himage] at h
  · simp only [himage, Except.ok.injEq] at h
    rw [← h, decodeItem, prost.item.decode_encode]
    change Except.ok ((itemMixins prost input image).foldl (decodeMixin prost)
      { contentType := inferContentType { mixinPayload := itemMixins prost input image } }) = _
    rw [foldl_itemMixins himage, inferContentType_itemMixins himage]
    rfl

theorem ImageSpec.WellFormed.normalized {image : ImageSpec} (h : image.WellFormed) :
    image.normalized.WellFormed ∧ image.normalized.normalized = image.normalized := by
  obtain ⟨⟨digest, hlen, hdigest⟩, hlevels⟩ := h
  have hhex : image.normalized.digestHex = bytesToHex digest := (bytesToHex_of_decode hdigest).symm
  have hread := hexToBytes_eq_ok.1 (hexToBytes_bytesToHex hlen)
  refine ⟨⟨⟨digest, hlen, by rw [hhex]; exact hread.2⟩, hlevels⟩, ?_⟩
  have hagain : image.normalized.normalized.digestHex = image.normalized.digestHex := by
    rw [hhex, ImageSpec.normalized, hhex, ← bytesToHex_of_decode hread.2]
  exact congrArg (fun hex => { image with digestHex := hex }) hagain

theorem impliedType_congr {declared : ContentType} {image image' : Option ImageSpec}
    {profile : Option ProfileSpec} (h : image.isSome = image'.isSome) :
    impliedType declared image profile = impliedType declared image' profile := by
  rw [impliedType, impliedType, h]

theorem impliedType_impliedType (declared : ContentType) (image : Option ImageSpec)
    (profile : Option ProfileSpec) :
    impliedType (impliedType declared image profile) image profile =
      impliedType declared image profile := by
  rcases declared <;> rcases image <;> rcases profile <;> rfl

/-- What a reader of an encoded item gets is stable. -/
theorem stable_published
    (h : ∀ image ∈ input.image, image.WellFormed) : input.published.Stable := by
  refine ⟨rfl, ?_, ?_⟩
  · have himage : input.published.image.isSome = input.image.isSome := isSome_map
    calc impliedType input.contentType input.image input.profile
        = impliedType (impliedType input.contentType input.image input.profile) input.image
            input.profile := (impliedType_impliedType _ _ _).symm
      _ = impliedType input.published.contentType input.published.image input.profile :=
          impliedType_congr himage.symm
  · intro image himage
    obtain ⟨spec, hspec, rfl⟩ := map_eq_some_iff.1 himage
    exact (h spec hspec).normalized

/-- Publishing again what was read changes nothing exactly for stable items. -/
theorem republish_iff :
    (∃ bytes, encodeItem prost item.prepared = .ok bytes ∧ decodeItem prost bytes = .ok item) ↔
      item.Stable := by
  constructor
  · rintro ⟨bytes, hencode, hdecode⟩
    have hpublished : item.prepared.published = item :=
      Except.ok.inj ((decodeItem_encodeItem hencode).symm.trans hdecode)
    have hwell := encodeItem_isOk_iff.1 ⟨bytes, hencode⟩
    have hstable := stable_published hwell
    rwa [hpublished] at hstable
  · rintro ⟨hlanguage, htype, himage⟩
    obtain ⟨bytes, hbytes⟩ := (@encodeItem_isOk_iff prost item.prepared).2
      fun image h => (himage image h).1
    refine ⟨bytes, hbytes, ?_⟩
    obtain ⟨contentType, title, body, language, image, profile⟩ := item
    obtain ⟨tag, rfl⟩ := isSome_iff_exists.1 hlanguage
    have hnormal : image.map ImageSpec.normalized = image := by
      rcases image with _ | spec
      · rfl
      · exact congrArg some (himage spec rfl).2
    rw [decodeItem_encodeItem hbytes]
    change Except.ok (DecodedItem.mk (impliedType contentType image profile) title body
      (some tag) (image.map ImageSpec.normalized) profile) = _
    rw [hnormal, ← htype]

/-- An item is encoded exactly if its image, if it has one, is well formed. Its title, body and
profile are read back as they were, its language as it was or as the default, its image with the
digest in lower case after `0x`, and its type is the one its parts imply. What was read is stable,
and a decoded item comes out of publishing it again as it was exactly if it is stable. -/
theorem item_roundTrip (prost : Prost) (input : PreparedContent) :
    ((∃ bytes, encodeItem prost input = .ok bytes) ↔ ∀ image ∈ input.image, image.WellFormed) ∧
      (∀ bytes, encodeItem prost input = .ok bytes →
        decodeItem prost bytes = .ok input.published ∧ input.published.Stable) ∧
      ∀ item : DecodedItem,
        (∃ bytes, encodeItem prost item.prepared = .ok bytes ∧
          decodeItem prost bytes = .ok item) ↔ item.Stable :=
  ⟨encodeItem_isOk_iff, fun bytes h => ⟨decodeItem_encodeItem h,
    stable_published (encodeItem_isOk_iff.1 ⟨bytes, h⟩)⟩, republish_iff⟩

def documentWithProfile : PreparedContent where
  profile := some { accountType := 1, location := "" }

/-- Not every item keeps its declared type: a document with a profile is read as a profile. -/
theorem not_keepsType_documentWithProfile :
    ¬ ∀ (input : PreparedContent) (bytes : Bytes), encodeItem Prost.wire input = .ok bytes →
      ∃ item, decodeItem Prost.wire bytes = .ok item ∧ item.contentType = input.contentType := by
  intro h
  obtain ⟨bytes, hencode⟩ := (@encodeItem_isOk_iff Prost.wire documentWithProfile).2
    (show ∀ image ∈ documentWithProfile.image, image.WellFormed from nofun)
  obtain ⟨item, hdecode, htype⟩ := h documentWithProfile bytes hencode
  rw [decodeItem_encodeItem hencode] at hdecode
  obtain rfl := Except.ok.inj hdecode
  exact absurd htype (by decide)

end Choreo.Content
