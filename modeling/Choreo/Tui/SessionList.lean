import Choreo.Library.Runs
import Choreo.Proto

/-!
# The cursor of the session list

The session manager of the terminal client (`SessionManagerState` of
`choreo-tui/src/state/pages.rs`) keeps the cursor as a row of a list that the daemon sorts again,
refreshes and shortens. A refresh and a new order look the session under the cursor up again; a
removal only keeps the row within the list, so that the cursor passes to the next session when a row
above it goes.
-/

namespace Choreo

open List Option

structure SessionSummary where
  sessionId : ℕ
  status : SessionStatus
  lastModified : ℤ
deriving DecidableEq

inductive SessionManagerView
  | list
  | detail
deriving DecidableEq

/-- The session whose details are on screen. -/
structure SessionDetailData where
  sessionId : ℕ
  status : SessionStatus
deriving DecidableEq

structure SessionManagerState where
  sessions : List SessionSummary := []
  view : SessionManagerView := .list
  selection : Option ℕ := none
  pendingSelect : Option ℕ := none
  scroll : ℕ := 0
  viewportHeight : ℕ := 0
  detailData : Option SessionDetailData := none
  confirmDelete : Option (ℕ × String) := none
  error : Option String := none
deriving DecidableEq

def pageScrollLines : ℕ := 3

namespace SessionManagerState

/-! ### The operations -/

variable (sessions : List SessionSummary) (id : ℕ)

def positionOf : Option ℕ :=
  sessions.findIdx? (·.sessionId == id)

variable (s : SessionManagerState)

/-- The session under the cursor. -/
def selectedId : Option ℕ :=
  (s.selection.bind fun i => s.sessions[i]?).map (·.sessionId)

/-- The newest session first; the sort is stable. -/
def sortByLastModified : List SessionSummary :=
  sessions.insertionSort fun a b => b.lastModified ≤ a.lastModified

/-- The first row and the number of rows shown in a window. -/
def window (height : ℕ) : ℕ × ℕ :=
  let len := s.sessions.length
  if len = 0 ∨ height = 0 then (0, 0)
  else
    let focused := min (s.selection.getD 0) (len - 1)
    let start := max (min (min s.scroll (len - height)) focused) (focused + 1 - height)
    (start, min height (len - start))

/-- Takes the first row that is shown for the anchor of the window. -/
def reanchorScroll : SessionManagerState :=
  { s with scroll := (s.window s.viewportHeight).1 }

/-- The list was fetched. -/
def setSessions (s : SessionManagerState) :
    SessionManagerState :=
  let preferred := s.pendingSelect <|> s.selectedId
  let sorted := sortByLastModified sessions
  { s with
    error := none
    sessions := sorted
    selection :=
      if sorted = [] then none else some ((preferred.bind (positionOf sorted)).getD 0)
    pendingSelect := none }

/-- Moves the cursor to a session, now or when the list is fetched. -/
def selectSession (s : SessionManagerState) : SessionManagerState :=
  let s := { s with pendingSelect := some id }
  match positionOf s.sessions id with
  | none => s
  | some idx => { s with selection := some idx }.reanchorScroll

/-- Sorts the list again. -/
def resortAfterStatusChange (s : SessionManagerState) : SessionManagerState :=
  let sorted := sortByLastModified s.sessions
  { s with sessions := sorted, selection := s.selectedId.bind (positionOf sorted) }

/-- Changes the first session with an id. -/
def updateSession (f : SessionSummary → SessionSummary) (id : ℕ) :
    List SessionSummary → List SessionSummary
  | [] => []
  | session :: rest =>
    if session.sessionId = id then f session :: rest else session :: updateSession f id rest

def handleSessionStatusChanged (status : SessionStatus) (lastModified : ℤ)
    (s : SessionManagerState) : SessionManagerState :=
  let changed := updateSession
    (fun session => { session with
      status := status
      lastModified := max session.lastModified lastModified }) id s.sessions
  let s := { s with sessions := changed }.resortAfterStatusChange
  { s with
    detailData := s.detailData.map fun detail =>
      if detail.sessionId = id then { detail with status := status } else detail }

def selectUp : SessionManagerState :=
  let s := s.reanchorScroll
  let sel := s.selection.getD 0
  if 0 < sel then
    { s with selection := some (sel - 1), scroll := min s.scroll (sel - 1) }
  else s

/-- The anchor that has a row in the window. -/
def shiftDown (row : ℕ) : ℕ :=
  if 0 < s.viewportHeight ∧ s.scroll + s.viewportHeight ≤ row then row + 1 - s.viewportHeight
  else s.scroll

def selectDown : SessionManagerState :=
  let s := s.reanchorScroll
  let sel := s.selection.getD 0
  if sel < s.sessions.length - 1 then
    { s with selection := some (sel + 1), scroll := s.shiftDown (sel + 1) }
  else s

def scrollUpPage : SessionManagerState :=
  let s := s.reanchorScroll
  match s.selection with
  | none => s
  | some sel =>
    { s with
      selection := some (sel - pageScrollLines), scroll := min s.scroll (sel - pageScrollLines) }

def scrollDownPage : SessionManagerState :=
  let s := s.reanchorScroll
  match s.selection with
  | none => s
  | some sel =>
    let row := min (sel + pageScrollLines) (s.sessions.length - 1)
    { s with selection := some row, scroll := s.shiftDown row }

def without : List SessionSummary :=
  sessions.filter fun session => session.sessionId ≠ id

/-- A row, or the last one if there are fewer rows. -/
def rowWithin (rows sel : ℕ) : Option ℕ :=
  if rows ≤ sel then (if rows = 0 then none else some (rows - 1)) else some sel

/-- A session was deleted. -/
def removeSession (s : SessionManagerState) : SessionManagerState :=
  let kept := without s.sessions id
  if kept.length = s.sessions.length then s
  else
    let gone := (s.detailData.map (·.sessionId)) = some id
    { s with
      sessions := kept
      selection := s.selection.bind (rowWithin kept.length)
      view := if gone then .list else s.view
      detailData := if gone then none else s.detailData
      confirmDelete :=
        if s.confirmDelete.map (·.1) = some id then none else s.confirmDelete }

/-- Shows the details of the session under the cursor. -/
def enterDetail : SessionManagerState :=
  let detail := (s.selection.bind fun i => s.sessions[i]?).map fun session =>
    { sessionId := session.sessionId, status := session.status : SessionDetailData }
  { s with detailData := detail, view := if detail.isSome then .detail else s.view }

def leaveDetail : SessionManagerState :=
  { s with view := .list, detailData := none }

/-- What happens to the session list. -/
inductive ListEvent
  | setSessions (sessions : List SessionSummary)
  | selectSession (id : ℕ)
  | resortAfterStatusChange
  | sessionStatusChanged (id : ℕ) (status : SessionStatus) (lastModified : ℤ)
  | removeSession (id : ℕ)
  | selectUp
  | selectDown
  | scrollUpPage
  | scrollDownPage
  | resize (viewportHeight : ℕ)
  | enterDetail
  | leaveDetail
  | askDelete (id : ℕ) (title : String)
  | setError (msg : String)

def handle : ListEvent → SessionManagerState → SessionManagerState
  | .setSessions sessions, s => s.setSessions sessions
  | .selectSession id, s => s.selectSession id
  | .resortAfterStatusChange, s => s.resortAfterStatusChange
  | .sessionStatusChanged id status lastModified, s =>
    s.handleSessionStatusChanged id status lastModified
  | .removeSession id, s => s.removeSession id
  | .selectUp, s => s.selectUp
  | .selectDown, s => s.selectDown
  | .scrollUpPage, s => s.scrollUpPage
  | .scrollDownPage, s => s.scrollDownPage
  | .resize viewportHeight, s => { s with viewportHeight := viewportHeight }
  | .enterDetail, s => s.enterDetail
  | .leaveDetail, s => s.leaveDetail
  | .askDelete id title, s => { s with confirmDelete := some (id, title) }
  | .setError msg, s => { s with error := some msg }

/-- Everything can happen at any time. -/
def step (ev : ListEvent) (s : SessionManagerState) : Option SessionManagerState :=
  some (s.handle ev)

/-! ### The cursor -/

variable {s : SessionManagerState}

/-- The cursor is on a row if there is one, and every window shows as many rows as it can, the row
of the cursor among them. -/
structure Placed (s : SessionManagerState) : Prop where
  selected : s.selection = none → s.sessions = []
  row : ∀ sel, s.selection = some sel → sel < s.sessions.length

theorem mem_sortByLastModified {session : SessionSummary} {sessions : List SessionSummary} :
    session ∈ sortByLastModified sessions ↔ session ∈ sessions :=
  (perm_insertionSort _ sessions).mem_iff

theorem length_sortByLastModified :
    (sortByLastModified sessions).length = sessions.length :=
  length_insertionSort _ sessions

theorem length_updateSession (f : SessionSummary → SessionSummary) (id : ℕ)
    (sessions : List SessionSummary) :
    (updateSession f id sessions).length = sessions.length := by
  induction sessions with
  | nil => rfl
  | cons session rest ih =>
    rw [updateSession]
    split_ifs
    · rfl
    · rw [length_cons, length_cons, ih]

theorem positionOf_spec {sessions : List SessionSummary} {id i : ℕ}
    (h : positionOf sessions id = some i) :
    i < sessions.length ∧ (sessions[i]?).map (·.sessionId) = some id := by
  obtain ⟨hi, hid, -⟩ := List.findIdx?_eq_some_iff_getElem.1 h
  refine ⟨hi, ?_⟩
  rw [List.getElem?_eq_getElem hi, map_some, beq_iff_eq.1 hid]

theorem exists_positionOf {l : List SessionSummary} {id : ℕ}
    (h : ∃ session ∈ l, session.sessionId = id) : ∃ i, positionOf l id = some i := by
  obtain ⟨session, hmem, hid⟩ := h
  rw [← isSome_iff_exists, positionOf, List.findIdx?_isSome, List.any_eq_true]
  exact ⟨session, hmem, beq_iff_eq.2 hid⟩

theorem selectedId_eq_some {id : ℕ} :
    s.selectedId = some id ↔
      ∃ sel session, s.selection = some sel ∧ s.sessions[sel]? = some session ∧
        session.sessionId = id := by
  simp [selectedId, map_eq_some_iff, bind_eq_some_iff]

theorem selectedId_of_positionOf {sessions : List SessionSummary} {id : ℕ}
    (hmem : ∃ session ∈ sessions, session.sessionId = id) (hsessions : s.sessions = sessions)
    (hselection : s.selection = positionOf sessions id) : s.selectedId = some id := by
  obtain ⟨i, hi⟩ := exists_positionOf hmem
  rw [selectedId, hselection, hsessions, hi, bind_some]
  exact (positionOf_spec hi).2

/-! ### The window -/

/-- A window shows the row of the cursor and as many rows as it can. -/
theorem Placed.window_spec (h : s.Placed) {height : ℕ} (hheight : 0 < height) :
    (s.window height).1 + (s.window height).2 ≤ s.sessions.length ∧
      (s.window height).2 = min height s.sessions.length ∧
      ∀ sel, s.selection = some sel →
        (s.window height).1 ≤ sel ∧ sel < (s.window height).1 + (s.window height).2 := by
  rw [window]
  dsimp only
  by_cases hlen : s.sessions.length = 0
  · rw [if_pos (Or.inl hlen), hlen]
    refine ⟨le_rfl, by omega, fun sel hsel => ?_⟩
    have := h.row sel hsel
    omega
  · rw [if_neg (by omega)]
    dsimp only
    refine ⟨by omega, by omega, fun sel hsel => ?_⟩
    have hrow := h.row sel hsel
    rw [hsel, getD_some]
    omega

/-! ### The cursor stays on a row -/

theorem placed_new : ({} : SessionManagerState).Placed :=
  ⟨fun _ => rfl, fun _ h => by cases h⟩

/-- Placement only depends on the list and the cursor. -/
theorem Placed.congr {s' : SessionManagerState} (h : s.Placed)
    (hsessions : s'.sessions = s.sessions) (hselection : s'.selection = s.selection) :
    s'.Placed := by
  refine ⟨fun hnone => ?_, fun sel hsel => ?_⟩
  · rw [hsessions]
    exact h.selected (hselection.symm.trans hnone)
  · rw [hsessions]
    exact h.row sel (hselection.symm.trans hsel)

/-- The cursor is on a row after a move to one. -/
theorem placed_of_row {i : ℕ} (hselection : s.selection = some i)
    (hsel : i < s.sessions.length) : s.Placed := by
  refine ⟨fun hnone => ?_, fun sel' hsel' => ?_⟩
  · cases hselection.symm.trans hnone
  · cases hselection.symm.trans hsel'
    exact hsel

theorem Placed.row_getD (h : s.Placed) (hne : s.sessions ≠ []) :
    ∃ sel, s.selection = some sel ∧ sel < s.sessions.length := by
  cases hsel : s.selection with
  | none => exact absurd (h.selected hsel) hne
  | some sel => exact ⟨sel, rfl, h.row sel hsel⟩

theorem placed_setSessions (s : SessionManagerState) :
    (s.setSessions sessions).Placed := by
  by_cases hnil : sortByLastModified sessions = []
  · refine ⟨fun _ => hnil, fun sel hsel => ?_⟩
    rw [setSessions, if_pos hnil] at hsel
    cases hsel
  · refine placed_of_row (if_neg hnil) ?_
    change _ < (sortByLastModified sessions).length
    have hpos := length_pos_iff.2 hnil
    cases hat : (s.pendingSelect <|> s.selectedId).bind
        (positionOf (sortByLastModified sessions)) with
    | none => exact hpos
    | some i =>
      obtain ⟨id, -, hi⟩ := bind_eq_some_iff.1 hat
      exact (positionOf_spec hi).1

theorem Placed.selectSession (h : s.Placed) (id : ℕ) : (s.selectSession id).Placed := by
  rw [SessionManagerState.selectSession]
  dsimp only
  cases hat : positionOf s.sessions id with
  | none => exact h.congr rfl rfl
  | some idx => exact placed_of_row rfl (positionOf_spec hat).1

/-- A new order has a row for the session under the cursor. -/
theorem Placed.resortAfterStatusChange (h : s.Placed) : s.resortAfterStatusChange.Placed := by
  have hlength := length_sortByLastModified s.sessions
  by_cases hnil : s.sessions = []
  · have hsorted : sortByLastModified s.sessions = [] := by rw [hnil]; rfl
    refine ⟨fun _ => hsorted, fun sel hsel => ?_⟩
    obtain ⟨id, -, hi⟩ := bind_eq_some_iff.1 hsel
    exact (positionOf_spec hi).1
  · obtain ⟨sel, hsel, hrow⟩ := h.row_getD hnil
    have hid : s.selectedId = some s.sessions[sel].sessionId :=
      selectedId_eq_some.2 ⟨sel, _, hsel, List.getElem?_eq_getElem hrow, rfl⟩
    obtain ⟨i, hi⟩ := exists_positionOf (l := sortByLastModified s.sessions)
      ⟨_, mem_sortByLastModified.2 (getElem_mem hrow), rfl⟩
    refine placed_of_row (i := i) ?_ (positionOf_spec hi).1
    rw [SessionManagerState.resortAfterStatusChange]
    dsimp only
    rw [hid, bind_some, hi]

theorem Placed.selectUp (h : s.Placed) : s.selectUp.Placed := by
  rw [SessionManagerState.selectUp]
  split_ifs with hpos
  · cases hsel : s.selection with
    | none =>
      rw [reanchorScroll, hsel] at hpos
      cases hpos
    | some sel =>
      have hrow := h.row sel hsel
      refine placed_of_row rfl ?_
      change s.selection.getD 0 - 1 < s.sessions.length
      rw [hsel, getD_some]
      omega
  · exact h.congr rfl rfl

theorem Placed.selectDown (h : s.Placed) : s.selectDown.Placed := by
  rw [SessionManagerState.selectDown]
  split_ifs with hbelow
  · refine placed_of_row rfl ?_
    change s.selection.getD 0 < s.sessions.length - 1 at hbelow
    change s.selection.getD 0 + 1 < s.sessions.length
    omega
  · exact h.congr rfl rfl

theorem Placed.scrollUpPage (h : s.Placed) : s.scrollUpPage.Placed := by
  cases hsel : s.selection with
  | none =>
    refine h.congr ?_ ?_ <;> simp only [SessionManagerState.scrollUpPage, reanchorScroll, hsel]
  | some sel =>
    have hrow := h.row sel hsel
    refine placed_of_row (i := sel - pageScrollLines) ?_ ?_ <;>
      simp only [SessionManagerState.scrollUpPage, reanchorScroll, hsel]
    omega

theorem Placed.scrollDownPage (h : s.Placed) : s.scrollDownPage.Placed := by
  cases hsel : s.selection with
  | none =>
    refine h.congr ?_ ?_ <;> simp only [SessionManagerState.scrollDownPage, reanchorScroll, hsel]
  | some sel =>
    have hrow := h.row sel hsel
    refine placed_of_row (i := min (sel + pageScrollLines) (s.sessions.length - 1)) ?_ ?_ <;>
      simp only [SessionManagerState.scrollDownPage, reanchorScroll, hsel]
    omega

theorem sessions_removeSession (s : SessionManagerState) :
    (s.removeSession id).sessions = without s.sessions id := by
  rw [removeSession]
  dsimp only
  by_cases hsame : (without s.sessions id).length = s.sessions.length
  · rw [if_pos hsame]
    exact (filter_sublist.eq_of_length hsame).symm
  · rw [if_neg hsame]

theorem selection_removeSession (s : SessionManagerState) :
    (s.removeSession id).selection =
      if (without s.sessions id).length = s.sessions.length then s.selection
      else s.selection.bind (rowWithin (without s.sessions id).length) := by
  rw [removeSession]
  dsimp only
  by_cases hsame : (without s.sessions id).length = s.sessions.length
  · rw [if_pos hsame, if_pos hsame]
  · rw [if_neg hsame, if_neg hsame]

/-- A removal keeps the cursor within the list. -/
theorem Placed.removeSession (h : s.Placed) (id : ℕ) : (s.removeSession id).Placed := by
  have hsessions := sessions_removeSession id s
  have hselection := selection_removeSession id s
  split_ifs at hselection with hsame
  · refine h.congr ?_ hselection
    rw [hsessions, without, filter_sublist.eq_of_length hsame]
  · cases hsel : s.selection with
    | none =>
      refine ⟨fun _ => ?_, fun sel hsel' => ?_⟩
      · rw [hsessions, h.selected hsel]
        rfl
      · rw [hselection, hsel] at hsel'
        cases hsel'
    | some sel =>
      rw [hsel, bind_some, rowWithin] at hselection
      split_ifs at hselection with hout hzero
      · refine ⟨fun _ => ?_, fun sel' hsel' => ?_⟩
        · rw [hsessions, length_eq_zero_iff.1 hzero]
        · cases hselection.symm.trans hsel'
      · refine placed_of_row hselection ?_
        rw [hsessions]
        omega
      · refine placed_of_row hselection ?_
        rw [hsessions]
        omega

/-- The cursor is on a row after whatever happens. -/
theorem Placed.handle (h : s.Placed) (ev : ListEvent) : (s.handle ev).Placed := by
  cases ev with
  | setSessions sessions => exact placed_setSessions sessions s
  | selectSession id => exact h.selectSession id
  | resortAfterStatusChange => exact h.resortAfterStatusChange
  | sessionStatusChanged id status lastModified =>
    refine Placed.congr (Placed.resortAfterStatusChange ?_) rfl rfl
    refine ⟨fun hnone => ?_, fun sel hsel => ?_⟩
    · change updateSession _ _ _ = []
      rw [h.selected hnone]
      rfl
    · change sel < (updateSession _ _ _).length
      rw [length_updateSession]
      exact h.row sel hsel
  | removeSession id => exact h.removeSession id
  | selectUp => exact h.selectUp
  | selectDown => exact h.selectDown
  | scrollUpPage => exact h.scrollUpPage
  | scrollDownPage => exact h.scrollDownPage
  | resize | enterDetail | leaveDetail | askDelete | setError => exact h.congr rfl rfl

/-! ### The cursor stays on its session -/

/-- A change that comes from the daemon: a refresh when no session is to be found in it, a new order
or a removal. -/
def DaemonDriven : ListEvent → Prop
  | .setSessions _ => s.pendingSelect = none
  | .resortAfterStatusChange | .sessionStatusChanged .. | .removeSession _ => True
  | _ => False

/-- The cursor stays on its session if the session is still in the list. -/
def Follows (ev : ListEvent) : Prop :=
  ∀ id, s.selectedId = some id → (∃ session ∈ (s.handle ev).sessions, session.sessionId = id) →
    (s.handle ev).selectedId = some id

/-- No row above the cursor is removed, or no row below it is left. -/
def RemovesBelow (ev : ListEvent) (s : SessionManagerState) : Prop :=
  match ev with
  | .removeSession id =>
    ∀ sel ∈ s.selection,
      (∀ session ∈ s.sessions.take sel, session.sessionId ≠ id) ∨
        ∀ session ∈ s.sessions.drop (sel + 1), session.sessionId = id
  | _ => True

instance (ev : ListEvent) (s : SessionManagerState) : Decidable (RemovesBelow ev s) := by
  cases ev <;> unfold RemovesBelow <;> infer_instance

theorem follows_setSessions {sessions : List SessionSummary} (hpending : s.pendingSelect = none) :
    s.Follows (.setSessions sessions) := by
  intro id hid hmem
  have hin : ∃ session ∈ sortByLastModified sessions, session.sessionId = id := hmem
  obtain ⟨i, hi⟩ := exists_positionOf hin
  obtain ⟨session, hmem', -⟩ := hin
  refine selectedId_of_positionOf hmem rfl ?_
  change (if sortByLastModified sessions = [] then none
    else some (((s.pendingSelect <|> s.selectedId).bind
      (positionOf (sortByLastModified sessions))).getD 0)) =
    positionOf (sortByLastModified sessions) id
  rw [if_neg (ne_nil_of_mem hmem'), hpending, hid, hi]
  change some ((positionOf (sortByLastModified sessions) id).getD 0) = some i
  rw [hi, getD_some]

theorem follows_resort {i : ℕ} (hid : s.selectedId = some i)
    (hmem : ∃ session ∈ s.resortAfterStatusChange.sessions, session.sessionId = i) :
    s.resortAfterStatusChange.selectedId = some i := by
  refine selectedId_of_positionOf hmem rfl ?_
  rw [resortAfterStatusChange, hid]
  rfl

theorem map_updateSession {f : SessionSummary → SessionSummary}
    (hf : ∀ session, (f session).sessionId = session.sessionId) (id : ℕ)
    (sessions : List SessionSummary) :
    (updateSession f id sessions).map (·.sessionId) = sessions.map (·.sessionId) := by
  induction sessions with
  | nil => rfl
  | cons session rest ih =>
    rw [updateSession]
    split_ifs
    · rw [map_cons, map_cons, hf]
    · rw [map_cons, map_cons, ih]

theorem selectedId_eq :
    s.selectedId = s.selection.bind fun sel => (s.sessions.map (·.sessionId))[sel]? := by
  cases h : s.selection with
  | none => rw [selectedId, h]; rfl
  | some sel => rw [selectedId, h, bind_some, bind_some, List.getElem?_map]

/-- A removal leaves the cursor on its session when no row above it goes, and when no row below it
is left: then the cursor is moved to the last row, or it is there. -/
theorem follows_removeSession {id : ℕ} (hbelow : RemovesBelow (.removeSession id) s) :
    s.Follows (.removeSession id) := by
  intro id' hid hmem
  change (s.removeSession id).selectedId = some id'
  obtain ⟨sel, session, hsel, hrow, rfl⟩ := selectedId_eq_some.1 hid
  have hsessions := sessions_removeSession id s
  have hselection := selection_removeSession id s
  have hkept : session.sessionId ≠ id := by
    obtain ⟨other, hother, heq⟩ := hmem
    change other ∈ (s.removeSession id).sessions at hother
    rw [hsessions, without, mem_filter, decide_eq_true_eq] at hother
    rw [← heq]
    exact hother.2
  obtain ⟨hlt, hat⟩ := List.getElem?_eq_some_iff.1 hrow
  -- the list, cut at the cursor, without the session
  set above := without (s.sessions.take sel) id with habove
  set below := without (s.sessions.drop (sel + 1)) id with hbelow'
  have hsplit : without s.sessions id = above ++ session :: below := by
    conv_lhs => rw [← take_append_drop sel s.sessions, drop_eq_getElem_cons hlt, hat]
    rw [without, filter_append, filter_cons_of_pos (by simpa using hkept)]
    rfl
  have hlength : above.length ≤ sel :=
    (length_filter_le _ _).trans (length_take_le _ _)
  have hcut : above.length = sel ∨ below = [] := by
    refine (hbelow sel hsel).imp (fun hnone => ?_) fun hall => ?_
    · rw [habove, without, filter_eq_self.2 fun x hx => by simpa using hnone x hx,
        length_take, Nat.min_eq_left hlt.le]
    · rw [hbelow', without, filter_eq_nil_iff]
      exact fun x hx => by simpa using hall x hx
  have hselected : (s.removeSession id).selection = some above.length := by
    have hsum : (without s.sessions id).length = above.length + below.length + 1 := by
      rw [hsplit, length_append, length_cons, Nat.add_assoc]
    rw [hselection, hsel, bind_some, rowWithin, hsum]
    have hall : s.sessions.length = sel + (s.sessions.drop (sel + 1)).length + 1 := by
      rw [length_drop]
      omega
    have hless : below.length ≤ (s.sessions.drop (sel + 1)).length := length_filter_le _ _
    rcases hcut with hfull | hnil
    · split_ifs <;> first | omega | rw [hfull]
    · rw [hnil, length_nil]
      split_ifs <;> first | omega | exact congrArg some (by omega)
  refine selectedId_eq_some.2 ⟨above.length, session, hselected, ?_, rfl⟩
  rw [hsessions, hsplit, List.getElem?_append_right le_rfl, Nat.sub_self]
  rfl

/-- A change that comes from the daemon leaves the cursor on its session, unless it removes a row
above the cursor and leaves one below it. -/
theorem follows_of_daemonDriven {ev : ListEvent} (hev : s.DaemonDriven ev)
    (hbelow : RemovesBelow ev s) : s.Follows ev := by
  cases ev with
  | setSessions sessions => exact follows_setSessions hev
  | resortAfterStatusChange => exact fun id hid hmem => follows_resort hid hmem
  | sessionStatusChanged id status lastModified =>
    intro id' hid hmem
    refine follows_resort (i := id') ?_ hmem
    rw [selectedId_eq] at hid ⊢
    rw [← hid]
    dsimp only
    rw [map_updateSession]
    exact fun _ => rfl
  | removeSession id => exact follows_removeSession hbelow
  | _ => exact hev.elim

/-! ### Runs -/

/-- In every state that some events reach, the cursor is on a row if there is one, each window of
rows has as many as it can and shows the cursor, and what the daemon changes next leaves the cursor
on its session. -/
def CursorFollows (events : List ListEvent) : Prop :=
  ∀ before s, before <+: events → StepSystem.run step before {} = some s →
    s.Placed ∧
    (∀ height, 0 < height →
      (s.window height).1 + (s.window height).2 ≤ s.sessions.length ∧
        (s.window height).2 = min height s.sessions.length ∧
        ∀ sel, s.selection = some sel →
          (s.window height).1 ≤ sel ∧ sel < (s.window height).1 + (s.window height).2) ∧
    ∀ ev, before ++ [ev] <+: events → s.DaemonDriven ev → s.Follows ev

/-- The cursor follows its session in every run in which no removal takes a row above the cursor
and leaves one below it. -/
theorem cursorFollows_of_run {events : List ListEvent}
    (hbelow : StepSystem.Along step RemovesBelow events {}) : CursorFollows events := by
  intro before s hbefore hrun
  have hplaced : s.Placed := by
    refine StepSystem.invariant_of_run (I := Placed) ?_ placed_new hrun
    intro ev s s' h hstep
    cases hstep
    exact h.handle ev
  refine ⟨hplaced, fun height hheight => hplaced.window_spec hheight, ?_⟩
  rintro ev ⟨rest, rfl⟩ hev
  rw [append_assoc, StepSystem.along_append hrun] at hbelow
  exact follows_of_daemonDriven hev hbelow.2.1

namespace Sample

def secondOfThree : List ListEvent :=
  [.setSessions [⟨1, .inactive, 30⟩, ⟨2, .inactive, 20⟩, ⟨3, .inactive, 10⟩], .selectDown]

end Sample

theorem cursorFollows_removeLast :
    CursorFollows (Sample.secondOfThree ++ [.removeSession 3, .resortAfterStatusChange]) :=
  cursorFollows_of_run (by decide)

/-- The row above the cursor goes, and the cursor is on the next session. -/
theorem not_cursorFollows_removeFirst :
    ¬CursorFollows (Sample.secondOfThree ++ [.removeSession 1]) := by
  intro h
  obtain ⟨-, -, hfollows⟩ := h Sample.secondOfThree _ (prefix_append _ _) rfl
  exact absurd (hfollows (.removeSession 1) prefix_rfl trivial 2 (by decide) (by decide))
    (by decide)

end SessionManagerState

end Choreo
