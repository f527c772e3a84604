import Choreo.Content.Encode

/-!
# Revisions of an item

The revisions of an item are found in the events that an indexer keeps under the item's key
(`choreo-content/src/orchestrate.rs`). An event is kept under every item that it mentions, so the
events of items that link to the item are among them. One page of 512 events is read, and revision
ids are narrowed to 32 bits.
-/

namespace Choreo.Content

open List

/-- An event of the indexer, with its fields read as texts and as numbers. -/
structure DecodedEvent where
  palletName : String
  eventName : String
  blockNumber : UInt32
  timestamp : UInt64
  fieldStr : String → Option String
  fieldU64 : String → Option UInt64

structure RevisionEntry where
  revisionId : UInt32
  ipfsHashHex : String
  blockNumber : Option UInt32
  timestamp : Option UInt64
deriving DecidableEq, Repr

def eqIgnoreAsciiCase (a b : String) : Bool :=
  a.toList.map Char.toLower == b.toList.map Char.toLower

def publishes (itemIdHex : String) (e : DecodedEvent) : Bool :=
  (e.palletName == "Content" && e.eventName == "PublishRevision") &&
    (e.fieldStr "item_id").any (eqIgnoreAsciiCase · itemIdHex)

def revisionEntry (e : DecodedEvent) : Option RevisionEntry := do
  let rev ← e.fieldU64 "revision_id"
  let hash ← e.fieldStr "ipfs_hash"
  some ⟨rev.toUInt32, hash, some e.blockNumber, some e.timestamp⟩

/-- The revisions among the events under the item's key. -/
def revisionEntriesFromEvents (itemIdHex : String) (events : List DecodedEvent) :
    List RevisionEntry :=
  (events.filter (publishes itemIdHex)).filterMap revisionEntry

/-- Larger revision ids first, and larger blocks first for equal ones. -/
def sortRevisionsNewestFirst (revisions : List RevisionEntry) : List RevisionEntry :=
  revisions.mergeSort fun a b =>
    ((compare b.revisionId a.revisionId).then (compare b.blockNumber a.blockNumber)).isLE

section Lookup

variable (getEvents : String → ℕ → Except ContentError (List DecodedEvent)) (itemIdHex : String)

/-- The revisions of an item; the events under its key are those of the indexer. -/
def revisions : Except ContentError (List RevisionEntry) := do
  let events ← getEvents itemIdHex 512
  return sortRevisionsNewestFirst (revisionEntriesFromEvents itemIdHex events)

/-- The revision that is asked for, or the first one. -/
def selectRevision : Option UInt32 → List RevisionEntry → Option RevisionEntry
  | some target, revisions => revisions.find? fun r => r.revisionId == target
  | none, revisions => revisions.head?

def resolveRevision (revisionId : Option UInt32) : Except ContentError (UInt32 × String) := do
  let events ← getEvents itemIdHex 512
  let revisions := sortRevisionsNewestFirst (revisionEntriesFromEvents itemIdHex events)
  match selectRevision revisionId revisions with
  | some entry => .ok (entry.revisionId, entry.ipfsHashHex)
  | none => .error (.content (match revisionId with
    | some target => "revision " ++ toString target ++ " not found for item " ++ itemIdHex
    | none => "no indexed revision found for item " ++ itemIdHex))

/-! ### The published revisions -/

def publication (e : DecodedEvent) : Option (UInt64 × String) :=
  if publishes itemIdHex e then
    (e.fieldU64 "revision_id").bind fun rev => (e.fieldStr "ipfs_hash").map fun hash => (rev, hash)
  else none

/-- The published revisions, newest first. -/
def published (history : List DecodedEvent) : List (UInt64 × String) :=
  history.filterMap (publication itemIdHex)

/-- The revisions are those that were published: all of them are listed, a requested one is found if
and only if it is one of them, and the latest is the first. -/
structure Complete (history : List DecodedEvent) : Prop where
  listed : ∃ list, revisions getEvents itemIdHex = .ok list ∧
    list.map (fun r => (r.revisionId.toUInt64, r.ipfsHashHex)) = published itemIdHex history
  found : ∀ (target : UInt32) (r : UInt32 × String),
    resolveRevision getEvents itemIdHex (some target) = .ok r ↔
      r.1 = target ∧ (r.1.toUInt64, r.2) ∈ published itemIdHex history
  latest : ∀ r : UInt32 × String, resolveRevision getEvents itemIdHex none = .ok r ↔
    (published itemIdHex history).head? = some (r.1.toUInt64, r.2)

/-- Every revision that is published is among the newest 512 events, and its id has 32 bits. -/
def InPage (history : List DecodedEvent) : Prop :=
  (∀ e ∈ history.drop 512, publication itemIdHex e = none) ∧
    ∀ e ∈ history, ∀ p ∈ publication itemIdHex e, p.1.toNat < 2 ^ 32

/-! ### Entries of a page -/

variable {itemIdHex}

theorem revisionEntriesFromEvents_eq (events : List DecodedEvent) :
    revisionEntriesFromEvents itemIdHex events = events.filterMap fun e =>
      (publication itemIdHex e).map fun p =>
        ⟨p.1.toUInt32, p.2, some e.blockNumber, some e.timestamp⟩ := by
  rw [revisionEntriesFromEvents, filterMap_filter]
  refine filterMap_congr fun e _ => ?_
  rw [publication]
  split_ifs
  · rw [revisionEntry]
    cases e.fieldU64 "revision_id" <;> cases e.fieldStr "ipfs_hash" <;> rfl
  · rfl

theorem toUInt64_toUInt32 {n : UInt64} (hn : n.toNat < 2 ^ 32) : n.toUInt32.toUInt64 = n := by
  rw [← UInt64.toNat_inj, UInt32.toNat_toUInt64, UInt64.toNat_toUInt32, Nat.mod_eq_of_lt hn]

theorem map_revisionEntriesFromEvents {events : List DecodedEvent}
    (hsmall : ∀ e ∈ events, ∀ p ∈ publication itemIdHex e, p.1.toNat < 2 ^ 32) :
    (revisionEntriesFromEvents itemIdHex events).map
      (fun r => (r.revisionId.toUInt64, r.ipfsHashHex)) = published itemIdHex events := by
  rw [revisionEntriesFromEvents_eq, map_filterMap, published]
  refine filterMap_congr fun e he => ?_
  cases hp : publication itemIdHex e with
  | none => rfl
  | some p => exact congrArg (fun n => some (n, p.2)) (toUInt64_toUInt32 (hsmall e he p hp))

theorem length_revisionEntriesFromEvents (events : List DecodedEvent) :
    (revisionEntriesFromEvents itemIdHex events).length = (published itemIdHex events).length := by
  rw [revisionEntriesFromEvents_eq, published]
  induction events with
  | nil => rfl
  | cons e events ih =>
    rw [filterMap_cons, filterMap_cons]
    cases publication itemIdHex e with
    | none => exact ih
    | some p => exact congrArg (· + 1) ih

theorem sortRevisionsNewestFirst_eq {entries : List RevisionEntry}
    (h : entries.Pairwise fun a b => b.revisionId < a.revisionId) :
    sortRevisionsNewestFirst entries = entries := by
  refine mergeSort_of_pairwise (h.imp fun {a b} hlt => ?_)
  rw [Std.compare_eq_lt.2 hlt]
  rfl

variable {getEvents}

theorem resolveRevision_iff {events : List DecodedEvent}
    (hget : getEvents itemIdHex 512 = .ok events) (revisionId : Option UInt32)
    (r : UInt32 × String) :
    resolveRevision getEvents itemIdHex revisionId = .ok r ↔
      ∃ entry, selectRevision revisionId
          (sortRevisionsNewestFirst (revisionEntriesFromEvents itemIdHex events)) = some entry ∧
        (entry.revisionId, entry.ipfsHashHex) = r := by
  unfold resolveRevision
  rw [hget]
  change (match selectRevision revisionId _ with | some entry => _ | none => _) = _ ↔ _
  cases selectRevision revisionId
      (sortRevisionsNewestFirst (revisionEntriesFromEvents itemIdHex events)) with
  | none => exact iff_of_false nofun nofun
  | some entry => simp

theorem selectRevision_some {entries : List RevisionEntry}
    (h : entries.Pairwise fun a b => b.revisionId < a.revisionId) (target : UInt32)
    (entry : RevisionEntry) :
    selectRevision (some target) entries = some entry ↔
      entry.revisionId = target ∧ entry ∈ entries := by
  rw [selectRevision]
  constructor
  · intro hfind
    exact ⟨by simpa using List.find?_some hfind, mem_of_find?_eq_some hfind⟩
  · rintro ⟨rfl, hmem⟩
    have hunique :=
      inj_on_of_nodup_map (pairwise_map.2 (h.imp fun hlt => (UInt32.ne_of_lt hlt).symm))
    have hsome : (entries.find? fun r => r.revisionId == entry.revisionId).isSome :=
      List.find?_isSome.2 ⟨entry, hmem, by simp⟩
    obtain ⟨other, hother⟩ := Option.isSome_iff_exists.1 hsome
    have heq : other.revisionId = entry.revisionId := by simpa using List.find?_some hother
    rw [hother, hunique (mem_of_find?_eq_some hother) hmem heq]

theorem revisions_eq {history : List DecodedEvent}
    (hget : ∀ n, getEvents itemIdHex n = .ok (history.take n)) :
    revisions getEvents itemIdHex = .ok (sortRevisionsNewestFirst
      (revisionEntriesFromEvents itemIdHex (history.take 512))) := by
  rw [revisions, hget]
  rfl

theorem Complete.length_page {history : List DecodedEvent}
    (hget : ∀ n, getEvents itemIdHex n = .ok (history.take n))
    (h : Complete getEvents itemIdHex history) :
    (published itemIdHex (history.take 512)).length = (published itemIdHex history).length := by
  obtain ⟨list, hok, hmap⟩ := h.listed
  obtain rfl := Except.ok.inj ((revisions_eq hget).symm.trans hok)
  rw [← hmap, length_map, sortRevisionsNewestFirst, length_mergeSort,
    length_revisionEntriesFromEvents]

/-- Under an indexer that returns the newest events, the revisions are complete if and only if
all of them are in the page. -/
theorem complete_iff {history : List DecodedEvent}
    (hget : ∀ n, getEvents itemIdHex n = .ok (history.take n))
    (hincreasing : (published itemIdHex history).Pairwise fun newer older => older.1 < newer.1) :
    Complete getEvents itemIdHex history ↔ InPage itemIdHex history := by
  have hsplit : published itemIdHex history =
      published itemIdHex (history.take 512) ++ published itemIdHex (history.drop 512) := by
    rw [published, published, published, ← filterMap_append, take_append_drop]
  constructor
  · intro h
    constructor
    · have hlength := h.length_page hget
      rw [hsplit, length_append] at hlength
      have hnil : published itemIdHex (history.drop 512) = [] :=
        length_eq_zero_iff.1 (by omega)
      exact filterMap_eq_nil_iff.1 hnil
    · intro e he p hp
      have hmem : p ∈ published itemIdHex history := mem_filterMap.2 ⟨e, he, hp⟩
      obtain ⟨_, -, hmap⟩ := h.listed
      rw [← hmap] at hmem
      obtain ⟨r, -, rfl⟩ := mem_map.1 hmem
      exact r.revisionId.toNat_lt
  · rintro ⟨hpage, hsmall⟩
    have hnil : published itemIdHex (history.drop 512) = [] := filterMap_eq_nil_iff.2 hpage
    have hentries := @map_revisionEntriesFromEvents itemIdHex (history.take 512)
      fun e he => hsmall e (mem_of_mem_take he)
    rw [hnil, append_nil, ← hentries] at hsplit
    have hpairwise : (revisionEntriesFromEvents itemIdHex (history.take 512)).Pairwise
        fun a b => b.revisionId < a.revisionId := by
      rw [hsplit, pairwise_map] at hincreasing
      refine hincreasing.imp fun h => ?_
      rwa [UInt64.lt_iff_toNat_lt, UInt32.toNat_toUInt64, UInt32.toNat_toUInt64,
        ← UInt32.lt_iff_toNat_lt] at h
    have hsorted := sortRevisionsNewestFirst_eq hpairwise
    refine ⟨⟨_, revisions_eq hget, by rw [hsorted, hsplit]⟩, ?_, ?_⟩
    · rintro target ⟨rev, hash⟩
      rw [resolveRevision_iff (hget 512), hsorted, hsplit, mem_map]
      simp only [selectRevision_some hpairwise, Prod.mk.injEq, UInt32.toUInt64_inj]
      grind
    · rintro ⟨rev, hash⟩
      rw [resolveRevision_iff (hget 512), hsorted, hsplit, List.head?_map, Option.map_eq_some_iff]
      simp only [selectRevision, Prod.mk.injEq, UInt32.toUInt64_inj]

end Lookup

def publishRevision (itemIdHex : String) (rev : UInt64) : DecodedEvent where
  palletName := "Content"
  eventName := "PublishRevision"
  blockNumber := 1
  timestamp := 0
  fieldStr name :=
    if name = "item_id" then some itemIdHex else if name = "ipfs_hash" then some "0x12" else none
  fieldU64 name := if name = "revision_id" then some rev else none

/-- An indexer that has a history under every key. -/
def indexer (history : List DecodedEvent) (_ : String) (limit : ℕ) :
    Except ContentError (List DecodedEvent) := .ok (history.take limit)

/-- Three revisions of an item, with revisions of another item in between. -/
def mixed : List DecodedEvent :=
  [publishRevision "0x01" 2, publishRevision "0x02" 5, publishRevision "0x01" 1,
    publishRevision "0x02" 4, publishRevision "0x01" 0]

theorem complete_mixed : Complete (indexer mixed) "0x01" mixed := by
  refine (complete_iff (fun _ => rfl) (by decide)).2 ⟨fun e he => (nomatch he), fun e he => ?_⟩
  have hsmall : (mixed.map fun e => (publication "0x01" e).all (·.1.toNat < 2 ^ 32)).all id := by
    decide
  simp only [all_map, List.all_eq_true] at hsmall
  exact fun p hp => of_decide_eq_true ((Option.all_eq_true _ _).1 (hsmall e he) p hp)

/-- A revision is not found when 512 later events of another item link to its item. -/
theorem not_complete :
    ¬ ∀ history, (published "0x01" history).Pairwise (fun newer older => older.1 < newer.1) →
      Complete (indexer history) "0x01" history := by
  intro h
  let foreign := List.replicate 512 (publishRevision "0x02" 0)
  have hforeign : published "0x01" foreign = [] := filterMap_replicate_of_none (by decide)
  have hpublished : published "0x01" (foreign ++ [publishRevision "0x01" 0]) = [(0, "0x12")] := by
    rw [published, filterMap_append, ← published, hforeign]
    decide
  have hcomplete := h (foreign ++ [publishRevision "0x01" 0])
    (by rw [hpublished]; exact pairwise_singleton _ _)
  have hlength := hcomplete.length_page fun _ => rfl
  rw [take_left' length_replicate, hforeign, hpublished] at hlength
  cases hlength

end Choreo.Content
