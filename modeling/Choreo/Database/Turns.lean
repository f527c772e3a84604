import Choreo.Session.Store
import Choreo.Database.KeyValue

/-!
# The tables of turns and attachments

The turns of all sessions are in one table, ordered by session and turn id, and the bytes of their
images in another one, ordered by session, turn id and slot (`write_turn`, `read_turns` and
`delete_turn_attachments` of `choreo-daemon/src/db/mod.rs`). A write drops the attachment rows of
its turn as a range of keys, inserts the new ones and replaces the turn; a read puts the bytes back
slot by slot. The blob of a turn is represented by the turn it decodes to.

Reading gives back what was written last, except that tool results with one call id share a slot,
that a range of keys of the largest turn id is empty, so that its old rows stay, and that nothing is
read for the largest session id.
-/

namespace Choreo

open OrderedTable List

/-! ### Attachments of one turn -/

namespace Store

/-- The row of a displayed image holds its bytes, or what was there before when it has none. -/
theorem get_insertDisplayed (i j : ℕ) (imgs : List DisplayedImageRecord) (rows : Attachments)
    (img : DisplayedImageRecord) (himg : imgs[j]? = some img) :
    (insertDisplayed i imgs rows)[displaySlot (i + j)]? =
      if img.data = [] then rows[displaySlot (i + j)]? else some img.data := by
  induction imgs generalizing i j rows with
  | nil => simp only [List.getElem?_nil, reduceCtorEq] at himg
  | cons img' imgs ih =>
    rw [insertDisplayed]
    rcases j with _ | j
    · rw [List.getElem?_cons_zero, Option.some.injEq] at himg
      subst himg
      rw [insertDisplayed_of_ne (i + 1) imgs _ _ fun j hj heq => by
        have := displaySlot_injective heq; omega]
      split_ifs with hdata
      · rfl
      · exact (Std.ExtTreeMap.get_insert rows _ _ _).trans (if_pos rfl)
    · rw [List.getElem?_cons_succ] at himg
      rw [show i + (j + 1) = i + 1 + j by omega, ih (i + 1) j _ himg]
      by_cases hdata : img.data = []
      · rw [if_pos hdata, if_pos hdata]
        split_ifs
        · rfl
        · rw [Std.ExtTreeMap.get_insert, if_neg]
          intro heq
          have := displaySlot_injective heq
          omega
      · rw [if_neg hdata, if_neg hdata]

/-- Tool results without image bytes leave the row of their call id alone. -/
theorem insertResults_of_empty (trs : List ToolResultRecord) (rows : Attachments) (c : String)
    (h : ∀ tr ∈ trs, tr.callId = c → ∀ image ∈ tr.image, image.data = []) :
    (insertResults trs rows)[resultSlot c]? = rows[resultSlot c]? := by
  induction trs generalizing rows with
  | nil => rfl
  | cons tr trs ih =>
    rw [insertResults, ih _ fun tr' htr' => h tr' (mem_cons_of_mem _ htr')]
    rcases himage : tr.image with _ | image
    · rfl
    · dsimp only
      split_ifs with hdata
      · rfl
      · rw [Std.ExtTreeMap.get_insert, if_neg]
        intro hslot
        exact hdata (h tr mem_cons_self (resultSlot_injective hslot).symm image himage)

/-- Displayed images come back exactly when their rows hold their bytes. -/
theorem reattachDisplayed_clear_iff (rows : Attachments) (i : ℕ)
    (imgs : List DisplayedImageRecord) :
    reattachDisplayed rows i (imgs.map fun img => { img with data := [] }) = imgs ↔
      ∀ j img, imgs[j]? = some img → rows[displaySlot (i + j)]?.getD [] = img.data := by
  induction imgs generalizing i with
  | nil => exact iff_of_true rfl fun j img himg => by simp at himg
  | cons img imgs ih =>
    rw [map_cons, reattachDisplayed, if_pos rfl, cons.injEq, ih (i + 1)]
    constructor
    · rintro ⟨hhead, htail⟩ j img' hj
      rcases j with _ | j
      · rw [List.getElem?_cons_zero, Option.some.injEq] at hj
        subst hj
        exact congrArg DisplayedImageRecord.data hhead
      · rw [show i + (j + 1) = i + 1 + j by omega]
        exact htail j img' hj
    · intro hall
      refine ⟨?_, fun j img' hj => ?_⟩
      · rw [show rows[displaySlot i]?.getD [] = img.data from hall 0 img rfl]
      · rw [show i + 1 + j = i + (j + 1) by omega]
        exact hall (j + 1) img' hj

/-- The image of a tool result comes back exactly when the row of its call id holds its bytes. -/
theorem reattachResult_clear_iff (rows : Attachments) (tr : ToolResultRecord) :
    reattachResult rows
        { tr with image := tr.image.map fun image => { image with data := [] } } = tr ↔
      ∀ image ∈ tr.image, rows[resultSlot tr.callId]?.getD [] = image.data := by
  rcases himage : tr.image with _ | image
  · refine iff_of_true ?_ fun image hmem => by cases hmem
    simp only [reattachResult, Option.map_none]
    rw [← himage]
  · simp only [reattachResult, Option.map_some, if_true]
    constructor
    · intro heq image' hmem
      cases hmem
      have hdata := congrArg (fun tr => tr.image.map ImageReference.data) heq
      rw [himage] at hdata
      exact Option.some.inj hdata
    · intro hrow
      rw [hrow image rfl, ← himage]

/-- Where the attachment rows of a turn come from: the images with bytes, over the rows that were
there before. -/
def attachmentsOver (turn : Turn) (base : Attachments) : Attachments :=
  insertResults turn.toolResults (insertDisplayed 0 turn.displayedImages base)

/-- No row of an image without bytes is left over among the given rows. -/
structure NoLeftover (turn : Turn) (row : String → Option Bytes) : Prop where
  displayed : ∀ i img, turn.displayedImages[i]? = some img → img.data = [] →
    (row (displaySlot i)).getD [] = []
  results : ∀ tr ∈ turn.toolResults, ∀ image ∈ tr.image, image.data = [] →
    (row (resultSlot tr.callId)).getD [] = []

theorem get_attachmentsOver_displaySlot {turn : Turn} {i : ℕ} {img : DisplayedImageRecord}
    (himg : turn.displayedImages[i]? = some img) (base : Attachments) :
    (attachmentsOver turn base)[displaySlot i]?.getD [] =
      if img.data = [] then base[displaySlot i]?.getD [] else img.data := by
  have hrow := get_insertDisplayed 0 i turn.displayedImages base img himg
  rw [Nat.zero_add] at hrow
  rw [attachmentsOver, insertResults_displaySlot, hrow]
  split_ifs <;> rfl

/-- The tool results come back exactly when they agree on their images and no row of an image
without bytes is left over. -/
theorem results_eq_iff (turn : Turn) (base : Attachments) :
    (∀ tr ∈ turn.toolResults, ∀ image ∈ tr.image,
        (attachmentsOver turn base)[resultSlot tr.callId]?.getD [] = image.data) ↔
      turn.ResultImagesAgree ∧ ∀ tr ∈ turn.toolResults, ∀ image ∈ tr.image, image.data = [] →
        base[resultSlot tr.callId]?.getD [] = [] := by
  have hbase : ∀ c, (insertDisplayed 0 turn.displayedImages base)[resultSlot c]? =
      base[resultSlot c]? := fun c =>
    insertDisplayed_of_ne 0 _ _ _ fun j _ heq => displaySlot_ne_resultSlot j _ heq.symm
  have hempty : turn.ResultImagesAgree → ∀ tr ∈ turn.toolResults, ∀ image ∈ tr.image,
      image.data = [] →
      (attachmentsOver turn base)[resultSlot tr.callId]? = base[resultSlot tr.callId]? := by
    intro hagree tr htr image himage hdata
    rw [attachmentsOver, insertResults_of_empty _ _ _ fun tr' htr' hc image' himage' => ?_, hbase]
    rw [hagree tr' htr' tr htr hc image' himage' image himage, hdata]
  constructor
  · intro hall
    have hagree : turn.ResultImagesAgree := by
      intro r hr r' hr' hc image himage image' himage'
      rw [← hall r hr image himage, ← hall r' hr' image' himage', hc]
    refine ⟨hagree, fun tr htr image himage hdata => ?_⟩
    rw [← hempty hagree tr htr image himage hdata, hall tr htr image himage, hdata]
  · rintro ⟨hagree, hleft⟩ tr htr image himage
    by_cases hdata : image.data = []
    · rw [hempty hagree tr htr image himage hdata, hleft tr htr image himage hdata, hdata]
    · rcases insertResults_resultSlot turn.toolResults
        (insertDisplayed 0 turn.displayedImages base) tr.callId with
        ⟨-, hnone⟩ | ⟨tr', htr', hc, image', himage', heq⟩
      · exact absurd (hnone tr htr rfl image himage) hdata
      · rw [attachmentsOver, heq, Option.getD_some]
        exact hagree tr' htr' tr htr hc image' himage' image himage

/-- A turn is read back from its byte-less copy and the rows written over `base` exactly when its
tool results agree on their images and no row of an image without bytes is left over. -/
theorem reattach_eq_iff (turn : Turn) (base : Attachments) :
    reattach (attachmentsOver turn base) (storageView turn) = turn ↔
      turn.ResultImagesAgree ∧ NoLeftover turn fun slot => base[slot]? := by
  have hsplit : reattach (attachmentsOver turn base) (storageView turn) = turn ↔
      (∀ i img, turn.displayedImages[i]? = some img → img.data = [] →
        base[displaySlot i]?.getD [] = []) ∧
      ∀ tr ∈ turn.toolResults, ∀ image ∈ tr.image,
        (attachmentsOver turn base)[resultSlot tr.callId]?.getD [] = image.data := by
    have hfields : reattach (attachmentsOver turn base) (storageView turn) = turn ↔
        reattachDisplayed (attachmentsOver turn base) 0
          (turn.displayedImages.map fun img => { img with data := [] }) = turn.displayedImages ∧
        (turn.toolResults.map fun tr => reattachResult (attachmentsOver turn base)
          { tr with image := tr.image.map fun image => { image with data := [] } }) =
          turn.toolResults := by
      constructor
      · intro heq
        refine ⟨congrArg Turn.displayedImages heq, ?_⟩
        have hresults := congrArg Turn.toolResults heq
        rwa [reattach, storageView, map_map] at hresults
      · rintro ⟨hdisplayed, hresults⟩
        simp only [reattach, storageView, map_map, Function.comp_def]
        rw [hdisplayed, hresults]
    rw [hfields, reattachDisplayed_clear_iff]
    refine and_congr ?_ ?_
    · refine forall₃_congr fun i img himg => ?_
      rw [Nat.zero_add, get_attachmentsOver_displaySlot himg]
      by_cases hdata : img.data = []
      · simp only [hdata, if_true, forall_const]
      · simp only [hdata, if_false, false_imp_iff]
    · have hself : ∀ {f : ToolResultRecord → ToolResultRecord},
          turn.toolResults.map f = turn.toolResults ↔ ∀ tr ∈ turn.toolResults, f tr = tr := by
        intro f
        conv_lhs => rw [← List.map_id turn.toolResults, map_map, map_inj_left]
        rfl
      rw [hself]
      exact forall₂_congr fun tr _ => reattachResult_clear_iff _ tr
  rw [hsplit, results_eq_iff]
  constructor
  · rintro ⟨hdisplayed, hagree, hresults⟩
    exact ⟨hagree, hdisplayed, hresults⟩
  · rintro ⟨hagree, hdisplayed, hresults⟩
    exact ⟨hdisplayed, hagree, hresults⟩

end Store

/-! ### The tables -/

/-- Turns are ordered by session id, then by turn id. -/
abbrev turnOrder : ℕ × ℕ → ℕ × ℕ → Ordering := keyOrder compare compare

/-- Attachments are ordered by session id, turn id and slot. -/
abbrev attachmentOrder : (ℕ × ℕ) × String → (ℕ × ℕ) × String → Ordering :=
  keyOrder turnOrder compare

abbrev AttachmentTable := Std.ExtTreeMap ((ℕ × ℕ) × String) Bytes attachmentOrder

/-- The turns and the attachments of all sessions. -/
structure TurnTables where
  turns : Std.ExtTreeMap (ℕ × ℕ) Turn turnOrder := ∅
  attachments : AttachmentTable := ∅

namespace TurnTables

/-- Removes the attachment rows of a turn: the keys up to the next turn id. The largest turn id has
no next one. -/
def deleteTurnAttachments (key : ℕ × ℕ) (rows : AttachmentTable) : AttachmentTable :=
  removeKeys ((rangeEntries rows (key, "")
    ((key.1, min (key.2 + 1) (2 ^ 32 - 1)), "")).map Prod.fst) rows

def insertDisplayed (key : ℕ × ℕ) : ℕ → List DisplayedImageRecord → AttachmentTable →
    AttachmentTable
  | _, [], rows => rows
  | i, img :: imgs, rows =>
    insertDisplayed key (i + 1) imgs
      (if img.data = [] then rows else rows.insert (key, Store.displaySlot i) img.data)

def insertResults (key : ℕ × ℕ) : List ToolResultRecord → AttachmentTable → AttachmentTable
  | [], rows => rows
  | tr :: trs, rows =>
    insertResults key trs
      (match tr.image with
      | none => rows
      | some image =>
        if image.data = [] then rows
        else rows.insert (key, Store.resultSlot tr.callId) image.data)

/-- Writes a turn: its attachment rows are replaced together with its blob. -/
def writeTurn (sessionId turnId : ℕ) (turn : Turn) (db : TurnTables) : TurnTables where
  turns := db.turns.insert (sessionId, turnId) (Store.storageView turn)
  attachments :=
    insertResults (sessionId, turnId) turn.toolResults
      (insertDisplayed (sessionId, turnId) 0 turn.displayedImages
        (deleteTurnAttachments (sessionId, turnId) db.attachments))

/-- Puts the bytes of the displayed images back, the first of which has index `i`. -/
def reattachDisplayed (row : String → Option Bytes) : ℕ → List DisplayedImageRecord →
    List DisplayedImageRecord
  | _, [] => []
  | i, img :: imgs =>
    (if img.data = [] then { img with data := (row (Store.displaySlot i)).getD [] } else img) ::
      reattachDisplayed row (i + 1) imgs

/-- Puts the bytes of the image of a tool result back. -/
def reattachResult (row : String → Option Bytes) (tr : ToolResultRecord) : ToolResultRecord :=
  { tr with
    image := tr.image.map fun image =>
      if image.data = [] then { image with data := (row (Store.resultSlot tr.callId)).getD [] }
      else image }

/-- Puts the bytes of all images of a decoded turn back. -/
def reattach (row : String → Option Bytes) (turn : Turn) : Turn :=
  { turn with
    displayedImages := reattachDisplayed row 0 turn.displayedImages
    toolResults := turn.toolResults.map (reattachResult row) }

def row (db : TurnTables) (key : ℕ × ℕ) (slot : String) : Option Bytes :=
  db.attachments[(key, slot)]?

/-- All turns of a session in the order of their ids. -/
def readTurns (sessionId : ℕ) (db : TurnTables) : List (ℕ × Turn) :=
  (rangeEntries db.turns (sessionId, 0) (sessionRangeEnd sessionId, 0)).map fun p =>
    (p.1.2, reattach (db.row p.1) p.2)

/-! ### The rows of one turn -/

theorem reattach_eq {row : String → Option Bytes} {rows : Attachments}
    (h : ∀ slot, row slot = rows[slot]?) (turn : Turn) :
    reattach row turn = Store.reattach rows turn := by
  obtain rfl : row = fun slot => rows[slot]? := funext h
  have hdisplayed : ∀ i imgs, reattachDisplayed (fun slot => rows[slot]?) i imgs =
      Store.reattachDisplayed rows i imgs := by
    intro i imgs
    induction imgs generalizing i with
    | nil => rfl
    | cons img imgs ih => rw [reattachDisplayed, Store.reattachDisplayed, ih]
  rw [reattach, Store.reattach, hdisplayed]
  rfl

section Rows

variable {rows : AttachmentTable} {parts : ℕ × ℕ → Attachments} (key : ℕ × ℕ)

theorem splits_insertDisplayed (h : Splits rows parts) (i : ℕ) (imgs : List DisplayedImageRecord) :
    Splits (insertDisplayed key i imgs rows)
      (Function.update parts key (Store.insertDisplayed i imgs (parts key))) := by
  induction imgs generalizing i rows parts with
  | nil =>
    rw [Store.insertDisplayed, Function.update_eq_self]
    exact h
  | cons img imgs ih =>
    rw [insertDisplayed, Store.insertDisplayed]
    by_cases hdata : img.data = []
    · rw [if_pos hdata, if_pos hdata]
      exact ih h (i + 1)
    · rw [if_neg hdata, if_neg hdata]
      have hnext := ih (h.insert key (Store.displaySlot i) img.data) (i + 1)
      rwa [Function.update_self, Function.update_idem] at hnext

theorem splits_insertResults (h : Splits rows parts) (trs : List ToolResultRecord) :
    Splits (insertResults key trs rows)
      (Function.update parts key (Store.insertResults trs (parts key))) := by
  induction trs generalizing rows parts with
  | nil =>
    rw [Store.insertResults, Function.update_eq_self]
    exact h
  | cons tr trs ih =>
    rw [insertResults, Store.insertResults]
    rcases tr.image with _ | image
    · exact ih h
    · dsimp only
      by_cases hdata : image.data = []
      · rw [if_pos hdata, if_pos hdata]
        exact ih h
      · rw [if_neg hdata, if_neg hdata]
        have hnext := ih (h.insert key (Store.resultSlot tr.callId) image.data)
        rwa [Function.update_self, Function.update_idem] at hnext

/-- The old rows of a turn that a write of the turn leaves in place. -/
def kept (key : ℕ × ℕ) (rows : Attachments) : Attachments :=
  if key.2 < 2 ^ 32 - 1 then ∅ else rows

theorem splits_deleteTurnAttachments (h : Splits rows parts) :
    Splits (deleteTurnAttachments key rows)
      (Function.update parts key (kept key (parts key))) := by
  obtain ⟨sessionId, turnId⟩ := key
  by_cases hlast : turnId < 2 ^ 32 - 1
  · have hbounds : ∀ (x : ℕ × ℕ) (slot : String),
        (attachmentOrder ((sessionId, turnId), "") (x, slot)).isLE = true ∧
          attachmentOrder (x, slot) ((sessionId, min (turnId + 1) (2 ^ 32 - 1)), "") = .lt ↔
        x = (sessionId, turnId) ∧ true = true := by
      intro x slot
      rw [show min (turnId + 1) (2 ^ 32 - 1) = turnId + 1 by omega]
      refine (from_iff compare_empty_ne_lt ?_ fun y hle hlt => ?_).trans
        (and_congr_right fun _ => iff_of_true (isLE_compare_empty slot) rfl)
      · rw [turnOrder, keyOrder_mk, Ordering.then_eq_lt, Nat.compare_eq_lt]
        exact Or.inr ⟨Std.ReflCmp.compare_self, Nat.compare_eq_lt.2 (Nat.lt_succ_self _)⟩
      · obtain ⟨session, turn⟩ := y
        rw [turnOrder, keyOrder_mk, Ordering.isLE_then_iff_and, Nat.isLE_compare,
          Nat.compare_eq_lt, Nat.isLE_compare] at hle
        rw [turnOrder, keyOrder_mk, Ordering.then_eq_lt, Nat.compare_eq_lt, Nat.compare_eq_eq,
          Nat.compare_eq_lt] at hlt
        exact Prod.ext (by dsimp only; omega) (by dsimp only; omega)
    have hkeys := h.map_fst_rangeEntries hbounds
    rw [filter_true, Std.ExtTreeMap.map_fst_toList_eq_keys] at hkeys
    rw [deleteTurnAttachments, hkeys, kept, if_pos hlast, ← removeKeys_keys]
    exact h.removeKeys (sessionId, turnId) _
  · have hle : (attachmentOrder ((sessionId, min (turnId + 1) (2 ^ 32 - 1)), "")
        ((sessionId, turnId), "")).isLE = true := by
      rw [attachmentOrder, keyOrder_mk, turnOrder, keyOrder_mk,
        (Std.ReflCmp.compare_self : compare sessionId sessionId = .eq),
        (Std.ReflCmp.compare_self : compare "" "" = .eq), Ordering.eq_then, Ordering.then_eq,
        Nat.isLE_compare]
      omega
    rw [deleteTurnAttachments, rangeEntries_of_le hle, kept, if_neg hlast,
      Function.update_eq_self]
    exact h

theorem splits_writeTurn (h : Splits rows parts) (turn : Turn) :
    Splits (insertResults key turn.toolResults (insertDisplayed key 0 turn.displayedImages
        (deleteTurnAttachments key rows)))
      (Function.update parts key (Store.attachmentsOver turn (kept key (parts key)))) := by
  have hdisplayed := splits_insertDisplayed key (splits_deleteTurnAttachments key h) 0
    turn.displayedImages
  rw [Function.update_self, Function.update_idem] at hdisplayed
  have hresults := splits_insertResults key hdisplayed turn.toolResults
  rw [Function.update_self, Function.update_idem] at hresults
  exact hresults

end Rows

theorem readTurns_eq {db : TurnTables} {written : ℕ → TurnMap}
    (h : Splits db.turns fun s => (written s).map fun _ turn => Store.storageView turn)
    (sessionId : ℕ) :
    db.readTurns sessionId =
      if sessionId < 2 ^ 64 - 1 then
        (written sessionId).toList.map fun p =>
          (p.1, reattach (db.row (sessionId, p.1)) (Store.storageView p.2))
      else [] := by
  by_cases hlast : sessionId < 2 ^ 64 - 1
  · have hbounds : ∀ x turnId : ℕ,
        (turnOrder (sessionId, 0) (x, turnId)).isLE = true ∧
          turnOrder (x, turnId) (sessionRangeEnd sessionId, 0) = .lt ↔
        x = sessionId ∧ true = true := by
      intro x turnId
      refine Iff.trans ?_ (and_iff_left rfl).symm
      rw [sessionRangeEnd, turnOrder, keyOrder_mk, keyOrder_mk, Ordering.isLE_then_iff_and,
        Ordering.then_eq_lt, Nat.isLE_compare, Nat.isLE_compare, Nat.compare_eq_lt,
        Nat.compare_eq_lt, Nat.compare_eq_lt]
      omega
    have hentries := h.map_rangeEntries hbounds
    rw [filter_true, Std.ExtTreeMap.toList_map] at hentries
    rw [if_pos hlast]
    calc db.readTurns sessionId
        = ((rangeEntries db.turns (sessionId, 0) (sessionRangeEnd sessionId, 0)).map
            fun p => (p.1.2, p.2)).map
            fun q => (q.1, reattach (db.row (sessionId, q.1)) q.2) := by
          rw [readTurns, map_map]
          refine map_congr_left fun p hp => ?_
          obtain ⟨⟨x, turnId⟩, turn⟩ := p
          obtain ⟨rfl, -⟩ := (hbounds x turnId).1 (mem_rangeEntries.1 hp).2
          rfl
      _ = (written sessionId).toList.map fun p =>
            (p.1, reattach (db.row (sessionId, p.1)) (Store.storageView p.2)) := by
          rw [hentries, map_map]
          rfl
  · have hle : (turnOrder (sessionRangeEnd sessionId, 0) (sessionId, 0)).isLE = true := by
      rw [turnOrder, keyOrder_mk, (Std.ReflCmp.compare_self : compare 0 0 = .eq),
        Ordering.then_eq, Nat.isLE_compare, sessionRangeEnd]
      omega
    rw [if_neg hlast, readTurns, rangeEntries_of_le hle]
    rfl

end TurnTables

/-! ### Sequences of writes -/

structure TurnWrite where
  sessionId : ℕ
  turnId : ℕ
  turn : Turn
deriving DecidableEq, Repr

/-- The tables together with the turns that were written last, for each session. -/
structure TurnHistory where
  db : TurnTables := {}
  written : ℕ → TurnMap := fun _ => ∅

namespace TurnHistory

def step (write : TurnWrite) (h : TurnHistory) : Option TurnHistory :=
  some
    { db := h.db.writeTurn write.sessionId write.turnId write.turn
      written := Function.update h.written write.sessionId
        ((h.written write.sessionId).insert write.turnId write.turn) }

/-- Every session reads exactly the turns that were written last. -/
def ReadsBack (h : TurnHistory) : Prop :=
  ∀ sessionId, h.db.readTurns sessionId = (h.written sessionId).toList

/-- The turn of a write can be read back: it is not in the largest session, its tool results with
one call id agree on their images, and, for the largest turn id, no old row is left for an image
without bytes. -/
def Restorable (write : TurnWrite) (h : TurnHistory) : Prop :=
  write.sessionId < 2 ^ 64 - 1 ∧ write.turn.ResultImagesAgree ∧
    (2 ^ 32 - 1 ≤ write.turnId →
      Store.NoLeftover write.turn (h.db.row (write.sessionId, write.turnId)))

/-- The tables split into the byte-less turns of each session and the rows of each turn. -/
structure Tables (h : TurnHistory) (rows : ℕ × ℕ → Attachments) : Prop where
  turns : Splits h.db.turns fun s => (h.written s).map fun _ turn => Store.storageView turn
  rows : Splits h.db.attachments rows

variable {rows : ℕ × ℕ → Attachments} {h : TurnHistory}

theorem Tables.row_eq (ht : h.Tables rows)
    (key : ℕ × ℕ) (turn : Turn) :
    TurnTables.reattach (h.db.row key) turn = Store.reattach (rows key) turn :=
  TurnTables.reattach_eq (fun slot => ht.rows key slot) turn

/-- What is read is what was written last exactly when every turn comes back from its rows. -/
theorem Tables.rows_eq_iff (ht : h.Tables rows) :
    h.ReadsBack ↔ ∀ (s k : ℕ) (turn : Turn), (h.written s)[k]? = some turn →
      s < 2 ^ 64 - 1 ∧ Store.reattach (rows (s, k)) (Store.storageView turn) = turn := by
  constructor
  · intro hread s k turn hturn
    have hmem : (k, turn) ∈ h.db.readTurns s := by
      rw [hread s]
      exact Std.ExtTreeMap.mem_toList_iff_getElem?_eq_some.2 hturn
    rw [TurnTables.readTurns_eq ht.turns] at hmem
    split_ifs at hmem with hlast
    · obtain ⟨⟨k', turn'⟩, hmem', heq⟩ := mem_map.1 hmem
      rw [Std.ExtTreeMap.mem_toList_iff_getElem?_eq_some] at hmem'
      rw [Prod.mk.injEq, ht.row_eq] at heq
      obtain ⟨rfl, heq⟩ := heq
      cases hmem'.symm.trans hturn
      exact ⟨hlast, heq⟩
    · cases hmem
  · intro hback s
    rw [TurnTables.readTurns_eq ht.turns]
    split_ifs with hlast
    · conv_rhs => rw [← List.map_id (h.written s).toList]
      refine map_congr_left fun p hp => ?_
      obtain ⟨k, turn⟩ := p
      rw [ht.row_eq,
        (hback s k turn (Std.ExtTreeMap.mem_toList_iff_getElem?_eq_some.1 hp)).2]
      rfl
    · rw [eq_comm, eq_nil_iff_forall_not_mem]
      rintro ⟨k, turn⟩ hp
      exact hlast (hback s k turn (Std.ExtTreeMap.mem_toList_iff_getElem?_eq_some.1 hp)).1

/-- A write changes the byte-less turns of its session and the rows of its turn. -/
theorem Tables.step (ht : h.Tables rows)
    {write : TurnWrite} {h' : TurnHistory} (hstep : h.step write = some h') :
    h'.Tables (Function.update rows (write.sessionId, write.turnId)
      (Store.attachmentsOver write.turn (TurnTables.kept (write.sessionId, write.turnId)
        (rows (write.sessionId, write.turnId))))) := by
  cases hstep
  refine ⟨fun s k => ?_, TurnTables.splits_writeTurn _ ht.rows write.turn⟩
  refine (ht.turns.insert write.sessionId write.turnId (Store.storageView write.turn) s k).trans ?_
  by_cases hs : s = write.sessionId
  · subst hs
    dsimp only
    rw [Function.update_self, Function.update_self, Std.ExtTreeMap.get_insert,
      Std.ExtTreeMap.getElem?_map, Std.ExtTreeMap.getElem?_map, Std.ExtTreeMap.get_insert]
    split_ifs <;> rfl
  · dsimp only
    rw [Function.update_of_ne hs, Function.update_of_ne hs]

/-- Old rows matter for the largest turn id only. -/
theorem Tables.noLeftover_iff (ht : h.Tables rows)
    (write : TurnWrite) :
    (Store.NoLeftover write.turn fun slot =>
        (TurnTables.kept (write.sessionId, write.turnId)
          (rows (write.sessionId, write.turnId)))[slot]?) ↔
      (2 ^ 32 - 1 ≤ write.turnId →
        Store.NoLeftover write.turn (h.db.row (write.sessionId, write.turnId))) := by
  rw [TurnTables.kept]
  by_cases hlast : write.turnId < 2 ^ 32 - 1
  · rw [if_pos hlast]
    refine iff_of_true ⟨fun i img _ _ => ?_, fun tr _ image _ _ => ?_⟩
      fun hle => absurd hlast (not_lt.2 hle)
    · rw [Std.ExtTreeMap.getElem?_empty]
      rfl
    · rw [Std.ExtTreeMap.getElem?_empty]
      rfl
  · rw [if_neg hlast, show (fun slot => (rows (write.sessionId, write.turnId))[slot]?) =
      h.db.row (write.sessionId, write.turnId) from
      funext fun slot => (ht.rows (write.sessionId, write.turnId) slot).symm]
    exact ⟨fun hn _ => hn, fun hn => hn (not_lt.1 hlast)⟩

/-- After a write, everything is read back exactly when the written turn can be. -/
theorem step_readsBack_iff {write : TurnWrite} {h h' : TurnHistory}
    (ht : h.Tables rows) (hread : h.ReadsBack) (hstep : h.step write = some h') :
    h'.ReadsBack ↔ Restorable write h := by
  have hback := ht.rows_eq_iff.1 hread
  rw [(ht.step hstep).rows_eq_iff, Restorable, ← ht.noLeftover_iff write,
    ← Store.reattach_eq_iff]
  cases hstep
  dsimp only
  constructor
  · intro hall
    have hnew := hall write.sessionId write.turnId write.turn (by
      rw [Function.update_self, Std.ExtTreeMap.get_insert, if_pos rfl])
    rwa [Function.update_self] at hnew
  · rintro hnew s k turn hturn
    by_cases hkey : (s, k) = (write.sessionId, write.turnId)
    · cases hkey
      rw [Function.update_self, Std.ExtTreeMap.get_insert, if_pos rfl] at hturn
      cases hturn
      rw [Function.update_self]
      exact hnew
    · rw [Function.update_of_ne hkey]
      refine hback s k turn ?_
      by_cases hs : s = write.sessionId
      · subst hs
        rw [Function.update_self, Std.ExtTreeMap.get_insert,
          if_neg fun hk => hkey (Prod.ext rfl hk)] at hturn
        exact hturn
      · rwa [Function.update_of_ne hs] at hturn

/-- Throughout a sequence of writes every session reads exactly what was written last, exactly when
every write can be read back. -/
theorem readsBack_iff (writes : List TurnWrite) :
    (∀ before h, before <+: writes → StepSystem.run step before {} = some h → h.ReadsBack) ↔
      StepSystem.Along step Restorable writes {} := by
  have hempty : ({} : TurnHistory).Tables fun _ => ∅ := by
    refine ⟨fun s k => ?_, Splits.empty⟩
    rw [Std.ExtTreeMap.getElem?_map, Std.ExtTreeMap.getElem?_empty, Std.ExtTreeMap.getElem?_empty]
    rfl
  refine StepSystem.forall_prefix_iff_along_of
    (I := fun h : TurnHistory => (∃ rows, h.Tables rows) ∧ h.ReadsBack) (fun _ _ _ => rfl)
    (fun _ hI => hI.2) ?_ ?_ ⟨⟨_, hempty⟩, ?_⟩
  · rintro write h h' ⟨⟨rows, ht⟩, hread⟩ hstep hread'
    exact (step_readsBack_iff ht hread hstep).1 hread'
  · rintro write h h' ⟨⟨rows, ht⟩, hread⟩ hstep hrestorable
    exact ⟨⟨_, ht.step hstep⟩, (step_readsBack_iff ht hread hstep).2 hrestorable⟩
  · refine hempty.rows_eq_iff.2 fun s k turn hturn => ?_
    rw [Std.ExtTreeMap.getElem?_empty] at hturn
    cases hturn

/-- A turn with two tool results under one call id, with different images. -/
def repeatedId : Turn :=
  let result (data : Bytes) : ToolResultRecord :=
    { callId := "a", name := "read_image", content := "", isError := false
      invocationDescription := ""
      image := some { path := "/a.png", mimeType := "image/png", width := 1, height := 1, data } }
  { createdAt := 0, toolResults := [result [1], result [2]] }

/-- Both results are read back with the image of the second one. -/
theorem not_readsBack_repeatedId :
    ¬∀ h, StepSystem.run step [⟨1, 0, repeatedId⟩] {} = some h → h.ReadsBack := by
  intro hall
  have hread := hall _ rfl 1
  revert hread
  decide

end TurnHistory

end Choreo
