import Choreo.Database.Migrations

/-!
# The codec of turn rows

Version 2 of the schema wraps every turn row, which holds the turn in MessagePack, in one zstd frame
(`choreo-daemon/src/db/codec.rs`); the migration from version 1 wraps the rows that do not begin
with the magic of such a frame (`migrate_turn_values_to_zstd` of `choreo-daemon/src/db/mod.rs`).
Readers skip a row that does not decode. The compressor, the frame decoder and the MessagePack
decoder are parameters.
-/

namespace Choreo

open List Option

/-! ### Frames -/

/-- The frame format: the compressor, and the decoder, which reads up to a number of bytes from the
frame at the beginning of a blob and says how much of the blob it consumed. -/
structure Zstd where
  compress : Bytes → Bytes
  readFrame : Bytes → ℕ → Option (Bytes × ℕ)

def zstdFrameMagic : Bytes := [0x28, 0xB5, 0x2F, 0xFD]

/-- The largest payload of a turn row. -/
def maxTurnDecodedBytes : ℕ := 256 * 1024 * 1024

/-- A payload is one frame, which begins with the magic and reads back. -/
structure Zstd.RoundTrips (zstd : Zstd) : Prop where
  magic : ∀ payload, zstdFrameMagic <+: zstd.compress payload
  read : ∀ payload cap, payload.length < cap →
    zstd.readFrame (zstd.compress payload) cap = some (payload, (zstd.compress payload).length)
  read_long : ∀ payload cap, cap ≤ payload.length → ∀ out,
    zstd.readFrame (zstd.compress payload) cap = some out → out.1 = payload.take cap

variable (zstd : Zstd) (decode : Bytes → Option Turn) (blob : Bytes)

def zstdDecodeWithLimit (limit : ℕ) : Option Bytes :=
  match zstd.readFrame blob (limit + 1) with
  | none => none
  | some (buf, consumed) =>
    if buf.length > limit then none else if consumed ≠ blob.length then none else some buf

/-- Decodes the frame of a turn row. -/
def zstdDecode : Option Bytes := zstdDecodeWithLimit zstd blob maxTurnDecodedBytes

/-! ### The migration -/

/-- Whether a row begins with the magic of a frame. -/
def isFrame : Bool := zstdFrameMagic.isPrefixOf blob

/-- The second pass: every row of a key is read and wrapped. -/
def wrapTurns (turns : Std.ExtTreeMap TurnKey Bytes compareTurnKey) :
    List TurnKey → Except String (Std.ExtTreeMap TurnKey Bytes compareTurnKey)
  | [] => .ok turns
  | (sid, idx) :: keys =>
    match turns[(sid, idx)]? with
    | none => .error s!"turn vanished during migration: ({sid}, {idx})"
    | some raw => wrapTurns (turns.insert (sid, idx) (zstd.compress raw)) keys

/-- The migration from version 1 to version 2: the keys of the rows that are no frames are
collected, then their rows are wrapped. -/
def migrateTurnValuesToZstd (db : Database) : Except String Database :=
  let keys := (db.turns.toList.filter fun row => !isFrame row.2).map Prod.fst
  if keys = [] then .ok db
  else
    match wrapTurns zstd db.turns keys with
    | .error error => .error error
    | .ok turns => .ok { db with turns := turns }

/-- The schema version of this release. -/
def schemaVersion : ℕ := 2

/-- The migrations of this release. -/
def migrations : List Migration := [{ fromVersion := 1, run := migrateTurnValuesToZstd zstd }]

/-- Brings a database to the version of this release. -/
def runMigrations (disk : Disk) : MigrationRun :=
  runMigrationsTo schemaVersion (migrations zstd) disk

/-! ### The readers -/

/-- The turns of a session, in the order of their ids, as a decoder of rows finds them; the bytes of
images come from the attachment rows. -/
def readTurnsWith (decodeRow : Bytes → Option Turn) (db : Database) (session : ℕ) :
    List (ℕ × Turn) :=
  db.turns.toList.filterMap fun row =>
    if row.1.1 = session then
      (decodeRow row.2).map fun turn =>
        (row.1.2, Store.reattach (db.attachments[row.1]?.getD ∅) turn)
    else none

/-- The reader of version 2. -/
def readTurns : Database → ℕ → List (ℕ × Turn) :=
  readTurnsWith fun blob => (zstdDecode zstd blob).bind decode

/-- The reader of version 1, which takes a row for the turn itself. -/
def readTurnsV1 : Database → ℕ → List (ℕ × Turn) := readTurnsWith decode

/-! ### What the migration does -/

/-- What the migration makes of a row. -/
def wrapBlob : Bytes := if isFrame blob then blob else zstd.compress blob

theorem wrapTurns_spec (keys : List TurnKey) :
    ∀ turns : Std.ExtTreeMap TurnKey Bytes compareTurnKey, keys.Nodup →
      (∀ key ∈ keys, (turns[key]?).isSome = true) →
      ∃ turns', wrapTurns zstd turns keys = .ok turns' ∧
        ∀ key, turns'[key]? =
          if key ∈ keys then turns[key]?.map zstd.compress else turns[key]? := by
  induction keys with
  | nil => exact fun turns _ _ => ⟨turns, rfl, fun _ => by simp⟩
  | cons first keys ih =>
    obtain ⟨sid, idx⟩ := first
    intro turns hnodup hsome
    obtain ⟨hfirst, hnodup⟩ := nodup_cons.1 hnodup
    obtain ⟨raw, hraw⟩ := isSome_iff_exists.1 (hsome (sid, idx) (by simp))
    have hget : ∀ key, (turns.insert (sid, idx) (zstd.compress raw))[key]? =
        if key = (sid, idx) then some (zstd.compress raw) else turns[key]? :=
      fun key => Std.ExtTreeMap.get_insert _ _ _ _
    obtain ⟨turns', hwrap, hrest⟩ := ih (turns.insert (sid, idx) (zstd.compress raw)) hnodup (by
      intro key hkey
      rw [hget]
      split_ifs
      · rfl
      · exact hsome key (mem_cons_of_mem _ hkey))
    refine ⟨turns', by rw [wrapTurns, hraw]; exact hwrap, fun key => ?_⟩
    rw [hrest, hget]
    by_cases hkey : key = (sid, idx)
    · subst hkey
      simp [hfirst, hraw]
    · simp [hkey]

theorem migrateTurnValuesToZstd_eq (db : Database) :
    migrateTurnValuesToZstd zstd db = .ok (db.mapTurns (wrapBlob zstd)) := by
  set keys := (db.turns.toList.filter fun row => !isFrame row.2).map Prod.fst with hkeys
  have hmem : ∀ key, key ∈ keys ↔ ∃ blob, db.turns[key]? = some blob ∧ isFrame blob = false := by
    intro key
    simp [hkeys, Std.ExtTreeMap.mem_toList_iff_getElem?_eq_some]
  have hnodup : keys.Nodup :=
    (filter_sublist.map _).nodup (Std.ExtTreeMap.nodup_map_fst_toList db.turns)
  obtain ⟨turns', hwrap, hrows⟩ := wrapTurns_spec zstd keys db.turns hnodup (by
    intro key hkey
    obtain ⟨blob, hblob, -⟩ := (hmem key).1 hkey
    rw [hblob]
    rfl)
  have hturns : turns' = (db.mapTurns (wrapBlob zstd)).turns := by
    refine Std.ExtTreeMap.ext_getElem? fun key => ?_
    rw [hrows, getElem_mapTurns]
    cases hblob : db.turns[key]? with
    | none => simp
    | some blob =>
      have hiff : key ∈ keys ↔ isFrame blob = false := by
        rw [hmem, hblob]
        simp
      by_cases hframe : isFrame blob = true
      · rw [if_neg (by simp [hiff, hframe])]
        simp [wrapBlob, hframe]
      · rw [if_pos (by simpa [hiff] using hframe)]
        simp [wrapBlob, hframe]
  rw [migrateTurnValuesToZstd, ← hkeys]
  by_cases hnil : keys = []
  · rw [hnil, wrapTurns] at hwrap
    cases hwrap
    rw [if_pos hnil, Database.mapTurns]
    exact congrArg (fun turns => Except.ok { db with turns := turns }) hturns
  · rw [if_neg hnil, hwrap, hturns]
    rfl

section RoundTrip

variable {zstd} (hzstd : zstd.RoundTrips)
include hzstd

theorem isFrame_compress (payload : Bytes) : isFrame (zstd.compress payload) = true :=
  isPrefixOf_iff_prefix.2 (hzstd.magic payload)

theorem wrapBlob_wrapBlob (blob : Bytes) :
    wrapBlob zstd (wrapBlob zstd blob) = wrapBlob zstd blob := by
  by_cases hframe : isFrame blob = true
  · simp [wrapBlob, hframe]
  · simp [wrapBlob, hframe, isFrame_compress hzstd]

/-- The migration can be repeated. -/
theorem rerunnable_migrateTurnValuesToZstd :
    Migration.Rerunnable { fromVersion := 1, run := migrateTurnValuesToZstd zstd } where
  again := by
    rintro db db' - hrun
    simp only [migrateTurnValuesToZstd_eq] at hrun ⊢
    cases hrun
    refine congrArg Except.ok ?_
    simp only [Database.mapTurns]
    congr 1
    ext key blob
    simp [Std.ExtTreeMap.getElem?_map, wrapBlob_wrapBlob hzstd]
  version := by
    rintro db db' - hrun
    simp only [migrateTurnValuesToZstd_eq] at hrun
    cases hrun
    exact Or.inl rfl

/-- A wrapped payload decodes unless it is too long. -/
theorem zstdDecode_compress (payload : Bytes) :
    zstdDecode zstd (zstd.compress payload) =
      if payload.length ≤ maxTurnDecodedBytes then some payload else none := by
  rw [zstdDecode, zstdDecodeWithLimit]
  by_cases hlen : payload.length ≤ maxTurnDecodedBytes
  · rw [if_pos hlen, hzstd.read payload _ (Nat.lt_succ_of_le hlen)]
    simp only [if_neg (Nat.not_lt_of_ge hlen), ne_eq, not_true_eq_false, if_false]
  · rw [if_neg hlen]
    cases hread : zstd.readFrame (zstd.compress payload) (maxTurnDecodedBytes + 1) with
    | none => rfl
    | some out =>
      have hout := hzstd.read_long payload _ (Nat.lt_of_not_le hlen) out hread
      have hlong : out.1.length > maxTurnDecodedBytes := by
        rw [hout, length_take]
        omega
      simp only [if_pos hlong]

end RoundTrip

/-! ### What is read after the migration -/

/-- A row that means the same after the migration: a turn fits into a frame, and what begins with
the magic of a frame is no frame of a turn. -/
def RowKept : Prop :=
  (isFrame blob = false → decode blob ≠ none → blob.length ≤ maxTurnDecodedBytes) ∧
  (isFrame blob = true → (zstdDecode zstd blob).bind decode = none)

variable {zstd decode}

theorem decode_wrapBlob (hzstd : zstd.RoundTrips) (hdecode : ∀ blob, isFrame blob = true →
    decode blob = none) {blob : Bytes} (hkept : RowKept zstd decode blob) :
    (zstdDecode zstd (wrapBlob zstd blob)).bind decode = decode blob := by
  rw [wrapBlob]
  by_cases hframe : isFrame blob = true
  · rw [if_pos hframe, hkept.2 hframe, hdecode blob hframe]
  · rw [if_neg hframe, zstdDecode_compress hzstd]
    split_ifs with hlen
    · rfl
    · by_contra hcon
      exact hlen (hkept.1 (by simpa using hframe) (Ne.symm hcon))

theorem final_runMigrations (zstd : Zstd) {disk : Disk} (hversion : currentSchemaVersion disk.db = 1) :
    ((runMigrations zstd disk).final disk).db =
      stampSchemaVersion (disk.db.mapTurns (wrapBlob zstd)) schemaVersion := by
  rw [runMigrations, final_db rfl, schemaVersion,
    committed_singleton hversion (by decide) rfl]
  simp only [migrateTurnValuesToZstd_eq]
  rfl

/-- The migration keeps the turns that are read if every row is kept. Whatever the rows, a crash at
any point of it, followed by another run, ends with the same tables and version. The magic of a
frame begins no turn in MessagePack. -/
theorem runMigrations_preserves (hzstd : zstd.RoundTrips)
    (hdecode : ∀ blob, isFrame blob = true → decode blob = none)
    (disk : Disk) (hversion : currentSchemaVersion disk.db = 1) :
    ((∀ (key : TurnKey) (blob : Bytes), disk.db.turns[key]? = some blob → RowKept zstd decode blob) →
      ∀ session, readTurns zstd decode ((runMigrations zstd disk).final disk).db session =
        readTurnsV1 decode disk.db session) ∧
      ∀ crashed ∈ disk :: (runMigrations zstd disk).states,
        ((runMigrations zstd crashed).final crashed).db =
          ((runMigrations zstd disk).final disk).db := by
  refine ⟨fun hrows session => ?_, fun crashed hcrashed => ?_⟩
  · rw [final_runMigrations zstd hversion, readTurns, readTurnsV1, readTurnsWith, readTurnsWith,
      stampSchemaVersion, Database.mapTurns, Std.ExtTreeMap.toList_map, filterMap_map]
    refine filterMap_congr fun row hrow => ?_
    have hkept := hrows row.1 row.2 (Std.ExtTreeMap.mem_toList_iff_getElem?_eq_some.1 hrow)
    simp only [Function.comp_apply, decode_wrapBlob hzstd hdecode hkept]
  · have hrerun : ∀ migration ∈ migrations zstd, migration.Rerunnable := by
      intro migration hm
      rw [mem_singleton.1 hm]
      exact rerunnable_migrateTurnValuesToZstd hzstd
    exact crashSafe_of_le (Or.inr le_rfl) (migrations zstd) rfl hrerun disk hversion crashed
      hcrashed

/-! ### Raw frames -/

namespace Raw

/-- The blocks of a frame in which every byte is a raw block of its own; the last block is empty. -/
def blocks (payload : Bytes) : Bytes :=
  payload.flatMap (fun byte => [8, 0, 0, byte]) ++ [1, 0, 0]

/-- Reads such blocks; other blocks are refused. -/
def readBlocks : Bytes → Option (Bytes × ℕ)
  | 1 :: 0 :: 0 :: _ => some ([], 3)
  | 8 :: 0 :: 0 :: byte :: rest =>
    (readBlocks rest).map fun (payload, used) => (byte :: payload, used + 4)
  | _ => none

theorem readBlocks_blocks (payload : Bytes) :
    readBlocks (blocks payload) = some (payload, (blocks payload).length) := by
  induction payload with
  | nil => rfl
  | cons byte payload ih =>
    have hblocks : blocks (byte :: payload) = 8 :: 0 :: 0 :: byte :: blocks payload := rfl
    rw [hblocks, readBlocks, ih]
    rfl

/-- The magic, and a header that gives the size of the window only. -/
def header : Bytes := zstdFrameMagic ++ [0x00, 0x58]

/-- Frames of raw blocks. -/
def frames : Zstd where
  compress payload := header ++ blocks payload
  readFrame blob cap :=
    if header.isPrefixOf blob then
      (readBlocks (blob.drop 6)).map fun (payload, used) => (payload.take cap, 6 + used)
    else none

theorem readFrame_compress (payload : Bytes) (cap : ℕ) :
    frames.readFrame (frames.compress payload) cap =
      some (payload.take cap, (frames.compress payload).length) := by
  have hframe : header.isPrefixOf (header ++ blocks payload) = true :=
    isPrefixOf_iff_prefix.2 (prefix_append _ _)
  have hdrop : (header ++ blocks payload).drop 6 = blocks payload := rfl
  simp only [frames, hframe, if_true, hdrop, readBlocks_blocks, map_some, length_append]
  rfl

theorem roundTrips : frames.RoundTrips where
  magic payload := (prefix_append zstdFrameMagic _).trans (prefix_append header _)
  read payload cap hcap := by rw [readFrame_compress, take_of_length_le hcap.le]
  read_long payload cap _ out hout := by
    rw [readFrame_compress] at hout
    rw [← Option.some.inj hout]

/-- A field whose value takes one byte. -/
def field (name : String) (value : UInt8) : Bytes :=
  (0xA0 + UInt8.ofNat name.length) :: name.toList.map (fun c => UInt8.ofNat c.toNat) ++ [value]

def turnRow : Bytes :=
  0x85 :: (field "created_at" 0 ++ field "undone" 0xC2 ++ field "tool_calls" 0x90 ++
    field "tool_results" 0x90 ++ field "displayed_images" 0x90)

/-- A decoder that knows this turn; it does not look at what follows a turn. -/
def decodeTurn (blob : Bytes) : Option Turn :=
  if turnRow.isPrefixOf blob then some { createdAt := 0 } else none

theorem decodeTurn_of_isFrame (blob : Bytes) (h : isFrame blob = true) : decodeTurn blob = none := by
  obtain ⟨rest, rfl⟩ := isPrefixOf_iff_prefix.1 h
  rfl

/-- A database of version 1 with some rows of session 1. -/
def disk (rows : List Bytes) : Disk where
  db :=
    { turns := .ofList (rows.mapIdx fun idx row => ((1, idx), row)) compareTurnKey
      schemaVersion := some 1 }

end Raw

open Raw in
/-- A turn and a row that does not decode, with a crash at any point. -/
theorem runMigrations_preserves_twoRows :
    (∀ session, readTurns frames decodeTurn
        ((runMigrations frames (disk [turnRow, [0]])).final (disk [turnRow, [0]])).db session =
      readTurnsV1 decodeTurn (disk [turnRow, [0]]).db session) ∧
      ∀ crashed ∈ disk [turnRow, [0]] :: (runMigrations frames (disk [turnRow, [0]])).states,
        ((runMigrations frames crashed).final crashed).db =
          ((runMigrations frames (disk [turnRow, [0]])).final (disk [turnRow, [0]])).db := by
  obtain ⟨hread, hcrash⟩ := runMigrations_preserves roundTrips decodeTurn_of_isFrame
    (disk [turnRow, [0]]) rfl
  refine ⟨hread fun key blob hblob => ?_, hcrash⟩
  have hmem := Std.ExtTreeMap.mem_toList_iff_getElem?_eq_some.2 hblob
  have hlist : (disk [turnRow, [0]]).db.turns.toList =
      [((1, 0), turnRow), ((1, 1), [0])] := by decide
  rw [hlist] at hmem
  simp only [mem_cons, Prod.mk.injEq, not_mem_nil, or_false] at hmem
  obtain ⟨-, rfl⟩ | ⟨-, rfl⟩ := hmem <;>
    exact ⟨fun _ _ => by decide, fun h => absurd h (by decide)⟩

open Raw in
/-- The migration takes a row that is no turn, but a frame of one, for a row it has wrapped itself,
and the turn appears. A turn in a row over the limit disappears. -/
theorem not_preserves :
    (readTurnsV1 decodeTurn (disk [frames.compress turnRow]).db 1 = [] ∧
      readTurns frames decodeTurn ((runMigrations frames (disk [frames.compress turnRow])).final
        (disk [frames.compress turnRow])).db 1 = [(0, { createdAt := 0 })]) ∧
    readTurnsV1 decodeTurn (disk [turnRow ++ replicate maxTurnDecodedBytes 0]).db 1 =
        [(0, { createdAt := 0 })] ∧
      readTurns frames decodeTurn ((runMigrations frames
        (disk [turnRow ++ replicate maxTurnDecodedBytes 0])).final
          (disk [turnRow ++ replicate maxTurnDecodedBytes 0])).db 1 = [] := by
  refine ⟨by decide +kernel, ?_⟩
  generalize hrow : turnRow ++ replicate maxTurnDecodedBytes 0 = row
  have hdecode : decodeTurn row = some { createdAt := 0 } := by
    rw [← hrow]
    exact if_pos <| isPrefixOf_iff_prefix.2 (prefix_append _ _)
  have hframe : isFrame row = false := by rw [← hrow]; rfl
  have hnone : zstdDecode frames (wrapBlob frames row) = none := by
    rw [wrapBlob, hframe, if_neg Bool.false_ne_true, zstdDecode_compress roundTrips, if_neg]
    rw [← hrow, length_append, length_replicate]
    exact Nat.not_le_of_lt (Nat.lt_add_of_pos_left (by decide))
  have hlist : (disk [row]).db.turns.toList = [((1, 0), row)] := rfl
  constructor
  · rw [readTurnsV1, readTurnsWith, hlist]
    simp only [filterMap_cons, if_true, hdecode]
    rfl
  · rw [final_runMigrations frames rfl, readTurns, readTurnsWith, stampSchemaVersion,
      Database.mapTurns, Std.ExtTreeMap.toList_map, hlist]
    simp [hnone]

end Choreo
