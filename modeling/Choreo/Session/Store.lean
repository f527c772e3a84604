import Choreo.Session.State

/-!
# The store of a session

What the database keeps of one session (`choreo-daemon/src/db/mod.rs`): the session record, the
turn rows and the attachment rows. A turn is written without the bytes of its images; the bytes go
into attachment rows whose slot is `d<index>` for a displayed image and `r<call id>` for the image of
a tool result, and are put back when the turns are read. A row that does not decode is skipped by
the reader.
-/

namespace Choreo

/-- The attachment rows of a turn, by slot. -/
abbrev Attachments := Std.ExtTreeMap String Bytes

/-- The rows of one session: a turn row is `none` when its blob does not decode. -/
structure Store where
  record : Option SessionRecord := none
  turns : Std.ExtTreeMap ℕ (Option Turn) := ∅
  attachments : Std.ExtTreeMap ℕ Attachments := ∅
deriving DecidableEq

/-- Tool results of a turn with the same call id carry the same image bytes. -/
def Turn.ResultImagesAgree (turn : Turn) : Prop :=
  ∀ r ∈ turn.toolResults, ∀ r' ∈ turn.toolResults, r.callId = r'.callId →
    ∀ i ∈ r.image, ∀ i' ∈ r'.image, i.data = i'.data

instance (turn : Turn) : Decidable turn.ResultImagesAgree :=
  inferInstanceAs (Decidable (∀ r ∈ turn.toolResults, ∀ r' ∈ turn.toolResults,
    r.callId = r'.callId → ∀ i ∈ r.image, ∀ i' ∈ r'.image, i.data = i'.data))

namespace Store

/-! ### Writing a turn -/

/-- The slot of the displayed image with the given index. -/
def displaySlot (i : ℕ) : String := "d" ++ Nat.repr i

/-- The slot of the image of a tool result. -/
def resultSlot (callId : String) : String := "r" ++ callId

/-- The turn blob: the turn without the bytes of its images. -/
def storageView (turn : Turn) : Turn :=
  { turn with
    displayedImages := turn.displayedImages.map fun img => { img with data := [] }
    toolResults := turn.toolResults.map fun tr =>
      { tr with image := tr.image.map fun image => { image with data := [] } } }

/-- Adds the rows of the displayed images, the first of which has index `i`. -/
def insertDisplayed : ℕ → List DisplayedImageRecord → Attachments → Attachments
  | _, [], rows => rows
  | i, img :: imgs, rows =>
    insertDisplayed (i + 1) imgs
      (if img.data = [] then rows else rows.insert (displaySlot i) img.data)

def insertResults : List ToolResultRecord → Attachments → Attachments
  | [], rows => rows
  | tr :: trs, rows =>
    insertResults trs
      (match tr.image with
      | none => rows
      | some image =>
        if image.data = [] then rows else rows.insert (resultSlot tr.callId) image.data)

/-- The attachment rows of a turn. -/
def attachmentsOf (turn : Turn) : Attachments :=
  insertResults turn.toolResults (insertDisplayed 0 turn.displayedImages ∅)

variable (store : Store)

/-- Writes a turn: the attachment rows of the turn are replaced together with its blob. -/
def writeTurn (turnId : ℕ) (turn : Turn) : Store :=
  { store with
    turns := store.turns.insert turnId (some (storageView turn))
    attachments := store.attachments.insert turnId (attachmentsOf turn) }

/-- A write of a turn that may fail after all retries; a failed write changes nothing. -/
def writeTurnRetry (ok : Bool) (store : Store) (turnId : ℕ) (turn : Turn) : Store :=
  if ok then store.writeTurn turnId turn else store

/-- A write of the session record that may fail after all retries. -/
def writeSessionRetry (ok : Bool) (store : Store) (record : SessionRecord) : Store :=
  if ok then { store with record := some record } else store

/-! ### Reading the turns -/

/-- Puts the bytes of the displayed images back, the first of which has index `i`. -/
def reattachDisplayed (rows : Attachments) : ℕ → List DisplayedImageRecord →
    List DisplayedImageRecord
  | _, [] => []
  | i, img :: imgs =>
    (if img.data = [] then { img with data := rows[displaySlot i]?.getD [] } else img) ::
      reattachDisplayed rows (i + 1) imgs

/-- Puts the bytes of the image of a tool result back. -/
def reattachResult (rows : Attachments) (tr : ToolResultRecord) : ToolResultRecord :=
  { tr with
    image := tr.image.map fun image =>
      if image.data = [] then { image with data := rows[resultSlot tr.callId]?.getD [] }
      else image }

/-- Puts the bytes of all images of a decoded turn back. -/
def reattach (rows : Attachments) (turn : Turn) : Turn :=
  { turn with
    displayedImages := reattachDisplayed rows 0 turn.displayedImages
    toolResults := turn.toolResults.map (reattachResult rows) }

/-- The turn that the reader makes of the rows of a turn id, if its blob is there and decodes. -/
def readTurn (turnId : ℕ) : Option Turn :=
  (store.turns[turnId]?.getD none).map (reattach (store.attachments[turnId]?.getD ∅))

/-- All turns of the session in the order of their ids; rows that do not decode are skipped. -/
def readTurns : List (ℕ × Turn) :=
  store.turns.toList.filterMap fun row => (store.readTurn row.1).map fun turn => (row.1, turn)

/-! ### Round trips -/

theorem displaySlot_injective {i j : ℕ} (h : displaySlot i = displaySlot j) : i = j := by
  have hlist := congrArg String.toList h
  simp only [displaySlot, String.toList_append, List.append_cancel_left_eq, Nat.toList_repr]
    at hlist
  have hdigits := congrArg (fun l => Nat.ofDigitChars 10 l 0) hlist
  simpa only [Nat.ofDigitChars_ten_toDigits] using hdigits

theorem resultSlot_injective {c c' : String} (h : resultSlot c = resultSlot c') : c = c' := by
  have hlist := congrArg String.toList h
  simp only [resultSlot, String.toList_append, List.append_cancel_left_eq] at hlist
  exact String.toList_injective hlist

theorem displaySlot_ne_resultSlot (i : ℕ) (c : String) : displaySlot i ≠ resultSlot c := by
  intro h
  have hlist := congrArg String.toList h
  simp only [displaySlot, resultSlot, String.toList_append] at hlist
  exact absurd (List.head_eq_of_cons_eq hlist) (by decide)

theorem insertDisplayed_of_ne (i : ℕ) (imgs : List DisplayedImageRecord) (rows : Attachments)
    (slot : String) (h : ∀ j, i ≤ j → slot ≠ displaySlot j) :
    (insertDisplayed i imgs rows)[slot]? = rows[slot]? := by
  induction imgs generalizing i rows with
  | nil => rfl
  | cons img imgs ih =>
    rw [insertDisplayed, ih (i + 1) _ fun j hj => h j (by omega)]
    split_ifs
    · rfl
    · rw [Std.ExtTreeMap.get_insert, if_neg (h i le_rfl)]

/-- The tool results only add rows under result slots. -/
theorem insertResults_displaySlot (trs : List ToolResultRecord) (rows : Attachments) (i : ℕ) :
    (insertResults trs rows)[displaySlot i]? = rows[displaySlot i]? := by
  induction trs generalizing rows with
  | nil => rfl
  | cons tr trs ih =>
    rw [insertResults, ih]
    cases tr.image with
    | none => rfl
    | some image =>
      dsimp only
      split_ifs
      · rfl
      · rw [Std.ExtTreeMap.get_insert, if_neg (displaySlot_ne_resultSlot i _)]

theorem insertResults_resultSlot (trs : List ToolResultRecord) (rows : Attachments)
    (c : String) :
    ((insertResults trs rows)[resultSlot c]? = rows[resultSlot c]? ∧
        ∀ tr ∈ trs, tr.callId = c → ∀ image ∈ tr.image, image.data = []) ∨
      ∃ tr ∈ trs, tr.callId = c ∧ ∃ image ∈ tr.image,
        (insertResults trs rows)[resultSlot c]? = some image.data := by
  induction trs generalizing rows with
  | nil => exact Or.inl ⟨rfl, fun tr htr => absurd htr List.not_mem_nil⟩
  | cons tr trs ih =>
    rw [insertResults]
    set rows' : Attachments :=
      (match tr.image with
      | none => rows
      | some image =>
        if image.data = [] then rows else rows.insert (resultSlot tr.callId) image.data)
      with hrows'
    rcases ih rows' with ⟨heq, hempty⟩ | ⟨tr', htr', hc, image, himage, heq⟩
    · by_cases hadd : tr.callId = c ∧ ∃ image ∈ tr.image, image.data ≠ []
      · obtain ⟨rfl, image, himage, hdata⟩ := hadd
        refine Or.inr ⟨tr, List.mem_cons_self, rfl, image, himage, ?_⟩
        rw [heq, hrows', Option.mem_def.1 himage]
        simp only [hdata, if_false]
        rw [Std.ExtTreeMap.get_insert, if_pos rfl]
      · refine Or.inl ⟨?_, ?_⟩
        · rw [heq, hrows']
          cases himage : tr.image with
          | none => rfl
          | some image =>
            dsimp only
            split_ifs with hdata
            · rfl
            · rw [Std.ExtTreeMap.get_insert, if_neg]
              intro hslot
              exact hadd ⟨(resultSlot_injective hslot).symm, image, himage, hdata⟩
        · intro tr' htr' hc image himage
          rcases List.mem_cons.1 htr' with rfl | htr'
          · by_contra hdata
            exact hadd ⟨hc, image, himage, hdata⟩
          · exact hempty tr' htr' hc image himage
    · exact Or.inr ⟨tr', List.mem_cons_of_mem _ htr', hc, image, himage, heq⟩

/-- What the reader sees after a write of a turn. -/
theorem readTurn_writeTurn (turnId k : ℕ) (turn : Turn) :
    (store.writeTurn turnId turn).readTurn k =
      if k = turnId then some (reattach (attachmentsOf turn) (storageView turn))
      else store.readTurn k := by
  unfold readTurn writeTurn
  simp only [Std.ExtTreeMap.get_insert]
  split_ifs <;> rfl

end Store

end Choreo
