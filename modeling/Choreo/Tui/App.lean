import Choreo.Tui.Input

/-!
# The terminal client and its input bar

The terminal client has one input bar for all sessions (`choreo-tui/src/state/mod.rs`). Switching
the session on screen hands the bar over: its contents become the draft of the session that is left,
and the draft of the other session is moved into the bar. Stepping through the prompts of the past
keeps the user's own draft in a stash. A reply that a session was attached puts that session on
screen without handing the bar over.

## Main definitions

* `TuiApp`: the bar, the stash, the session on screen and the drafts of the sessions.
* `TuiApp.persistInputDraft`: the hand-over of the bar.
* `TuiEvent`, `TuiApp.step`: what the user and the daemon do.
-/

namespace Choreo

/-! ### The client -/

inductive Page
  | chat
  | sessionManager
  | aiProviders
deriving DecidableEq

/-- What the client keeps for a session: the draft, and the user's texts of its turns. -/
structure SessionDisplay where
  draft : List Char := []
  draftCursor : ℕ := 0
  turns : List (Option (List Char)) := []
deriving DecidableEq

/-- What the client knows of a session from the list of sessions. -/
structure SummaryRow where
  sessionId : ℕ
  parentSessionId : Option ℕ := none
  isActive : Bool := false
deriving DecidableEq

/-- The part of the client that the drafts depend on. -/
structure TuiApp where
  page : Page := .chat
  input : InputBuffer := {}
  attachedSessionId : Option ℕ := none
  activeSessionId : Option ℕ := none
  historyIndex : Option ℕ := none
  historyEntryText : Option (List Char) := none
  savedDraft : List Char := []
  savedDraftCursor : ℕ := 0
  displays : ℕ → Option SessionDisplay := fun _ => none
  sessions : List SummaryRow := []

namespace TuiApp

variable (app : TuiApp)

/-- The display of a session, a new one if there is none. -/
def displayFor (id : ℕ) : SessionDisplay := (app.displays id).getD {}

/-- Replaces the display of a session. -/
def setDisplay (id : ℕ) (display : SessionDisplay) : TuiApp :=
  { app with displays := Function.update app.displays id (some display) }

/-- The draft of a session. -/
def slot (id : ℕ) : InputBuffer :=
  { text := (app.displayFor id).draft, cursor := (app.displayFor id).draftCursor }

/-! ### Stepping through history -/

/-- The prompts of the session on screen, the newest first. -/
def userTexts : List (List Char) :=
  match app.activeSessionId.bind app.displays with
  | none => []
  | some display => display.turns.reverse.filterMap id

/-- The entry that Up loads, among so many. -/
def olderEntry (index : Option ℕ) (count : ℕ) : Option ℕ :=
  if count = 0 then none
  else
    match index with
    | none => some 0
    | some raw =>
      let idx := min raw (count - 1)
      if idx ≠ raw then some idx else if idx + 1 < count then some (idx + 1) else none

/-- The entry that Down loads, among so many; without one it goes back to the draft. -/
def newerEntry (idx count : ℕ) : Option ℕ :=
  if count = 0 ∨ idx = 0 then none else some (min (idx - 1) (count - 1))

/-- Puts an entry into the bar. -/
def loadHistoryEntry (idx : ℕ) (texts : List (List Char)) : TuiApp :=
  { app with
    historyIndex := some idx
    historyEntryText := some (texts.getD idx [])
    input := { text := texts.getD idx [], cursor := Utf8.size (texts.getD idx []) } }

/-- Keeps the draft before the first entry is loaded. -/
def stashDraft : TuiApp :=
  if app.historyIndex = none then
    { app with savedDraft := app.input.text, savedDraftCursor := app.input.cursor }
  else app

/-- Whether the loaded entry was edited. -/
def entryEdited : Bool :=
  match app.historyEntryText with
  | none => false
  | some entry => app.input.text ≠ entry

/-- Leaves the history. A bar that differs from the entry is what the user wants, else the kept
draft comes back. -/
def restoreHistoryDraft : TuiApp :=
  { app with
    historyIndex := none
    historyEntryText := none
    savedDraft := []
    savedDraftCursor := 0
    input := if app.entryEdited then app.input
      else { text := app.savedDraft, cursor := app.savedDraftCursor } }

/-- Leaves the history, if it was entered. -/
def leaveHistory : TuiApp :=
  if app.historyIndex.isSome then app.restoreHistoryDraft else app

/-- The Up key on the first line of the bar. -/
def navigateHistoryUp : TuiApp :=
  match olderEntry app.historyIndex app.userTexts.length with
  | none => app
  | some idx => app.stashDraft.loadHistoryEntry idx app.userTexts

/-- The Down key on the last line of the bar. -/
def navigateHistoryDown : TuiApp :=
  match app.historyIndex with
  | none => app
  | some idx =>
    match newerEntry idx app.userTexts.length with
    | none => app.restoreHistoryDraft
    | some prev => app.loadHistoryEntry prev app.userTexts

/-- Forgets the history and the kept draft. -/
def commitToHistory : TuiApp :=
  { app with
    historyIndex := none, historyEntryText := none, savedDraft := [], savedDraftCursor := 0 }

/-- Empties the draft of the session on screen. -/
def clearCurrentDraft : TuiApp :=
  match app.attachedSessionId with
  | none => app
  | some id => app.setDisplay id { app.displayFor id with draft := [], draftCursor := 0 }

/-- The Enter key. -/
def submit : TuiApp :=
  ({ app with input := {} } : TuiApp).clearCurrentDraft.commitToHistory

/-! ### Switching the session on screen -/

/-- Moves the contents of the bar to the session that is left, the cursor staying behind. -/
def stashInput : TuiApp :=
  match app.attachedSessionId with
  | none => app
  | some prev =>
    { app.setDisplay prev
        { app.displayFor prev with draft := app.input.text, draftCursor := app.input.cursor } with
      input := { app.input with text := [] } }

/-- Exchanges the bar with the draft of a session. -/
def swapDraft (target : ℕ) : TuiApp :=
  { app.setDisplay target
      { app.displayFor target with draft := app.input.text, draftCursor := app.input.cursor } with
    input := app.slot target }

/-- Hands the bar over to a session. With no session on screen a text in the bar stays there. -/
def persistInputDraft (target : ℕ) : TuiApp :=
  let app := app.leaveHistory
  if app.attachedSessionId = none ∧ app.input.text ≠ [] then app
  else app.stashInput.swapDraft target

def resetForSessionSwitch (id : ℕ) : TuiApp :=
  { app.setDisplay id (app.displayFor id) with activeSessionId := some id }

/-- Hands the bar over and puts a session on screen. -/
def switchTo (id : ℕ) : TuiApp :=
  { (app.persistInputDraft id).resetForSessionSwitch id with attachedSessionId := some id }

/-- The parent to go back to when the session on screen was started by an agent and has finished. -/
def attachedSubsessionFinished (id : ℕ) (isActive : Bool) : Option ℕ :=
  if app.page ≠ .chat ∨ app.attachedSessionId ≠ some id then none
  else
    (app.sessions.find? (·.sessionId == id)).bind fun summary =>
      summary.parentSessionId.bind fun parent =>
        if summary.isActive && !isActive && app.sessions.any (·.sessionId == parent) then
          some parent
        else none

/-- The session that a list of sessions puts on screen when there is none: the first that no agent
started, else the first. -/
def autoAttach (sessions : List SummaryRow) : Option ℕ :=
  if app.page = .chat ∧ app.attachedSessionId = none then
    ((sessions.find? (·.parentSessionId.isNone)).or sessions.head?).map (·.sessionId)
  else none

/-- The session that the news of a new one puts on screen. -/
def createdAttach (id : ℕ) (parent : Option ℕ) : Option ℕ :=
  if app.sessions.any (·.sessionId == id) ∨ app.page = .sessionManager ∨ parent.isSome then none
  else some id

/-- A session was attached, as the daemon replies. -/
def handleSessionAttached (id : ℕ) : TuiApp :=
  { app.setDisplay id (app.displayFor id) with
    activeSessionId := some id, attachedSessionId := some id }

/-- A session was deleted. -/
def handleSessionDeleted (id : ℕ) : TuiApp :=
  let app :=
    { app with
      sessions := app.sessions.filter (·.sessionId != id)
      displays := Function.update app.displays id none }
  if app.attachedSessionId = some id then
    ({ app with attachedSessionId := none, activeSessionId := none, input := {} } : TuiApp)
      |>.commitToHistory
  else app

end TuiApp

/-! ### What happens -/

/-- What the user and the daemon do: keys in the bar, the history and Enter on the chat page, going
to another page, and choosing a session; then the news of a new session, the list of sessions, the
reply that a session was attached, the status of a session, its deletion, and its turns. -/
inductive TuiEvent
  | key (key : Key)
  | up
  | down
  | submit
  | setPage (page : Page)
  | attachToSession (id : ℕ)
  | sessionCreated (id : ℕ) (parent : Option ℕ)
  | sessions (sessions : List SummaryRow)
  | sessionAttached (id : ℕ)
  | sessionStatusChanged (id : ℕ) (isActive : Bool)
  | sessionDeleted (id : ℕ)
  | turns (id : ℕ) (turns : List (Option (List Char)))

namespace TuiApp

/-- The session that an event puts on screen by handing the bar over to it. -/
def switchTarget (app : TuiApp) : TuiEvent → Option ℕ
  | .attachToSession id => some id
  | .sessionCreated id parent => app.createdAttach id parent
  | .sessions sessions => app.autoAttach sessions
  | .sessionStatusChanged id isActive => app.attachedSubsessionFinished id isActive
  | _ => none

/-- Switches to a session, if there is one to switch to. -/
def switchToAny (app : TuiApp) (target : Option ℕ) : TuiApp :=
  match target with
  | none => app
  | some id => app.switchTo id

/-- What an event writes besides the drafts: the page, the summaries of the sessions, the turns. -/
def refresh (app : TuiApp) : TuiEvent → TuiApp
  | .setPage page => { app with page := page }
  | .attachToSession _ => { app with page := .chat }
  | .sessions sessions => { app with sessions := sessions }
  | .sessionStatusChanged id isActive =>
    { app with
      sessions := app.sessions.map fun s =>
        if s.sessionId = id then { s with isActive := isActive } else s }
  | .turns id turns => app.setDisplay id { app.displayFor id with turns := turns }
  | _ => app

variable (graphemes : List Char → List (List Char))

/-- The client handles an event; `none` when it panics or when the key is not for the bar. -/
def step (ev : TuiEvent) (app : TuiApp) : Option TuiApp :=
  match ev with
  | .key key =>
    if app.page = .chat then
      (InputBuffer.handleKey graphemes key app.input).map fun input => { app with input := input }
    else none
  | .up => if app.page = .chat then some app.navigateHistoryUp else none
  | .down => if app.page = .chat then some app.navigateHistoryDown else none
  | .submit => if app.page = .chat then some app.submit else none
  | .sessionAttached id => some (app.handleSessionAttached id)
  | .sessionDeleted id => some (app.handleSessionDeleted id)
  | ev => some ((app.refresh ev).switchToAny (app.switchTarget ev))

end TuiApp

/-! ### The parts of a state -/

namespace TuiApp

theorem slot_congr {app app' : TuiApp} (h : app.displays = app'.displays) (id : ℕ) :
    app.slot id = app'.slot id := by
  simp only [slot, displayFor, h]

variable (app : TuiApp)

@[simp]
theorem slot_setDisplay_self (id : ℕ) (d : SessionDisplay) :
    (app.setDisplay id d).slot id = { text := d.draft, cursor := d.draftCursor } := by
  simp [slot, displayFor, setDisplay]

theorem slot_setDisplay_of_ne {id other : ℕ} (d : SessionDisplay)
    (h : other ≠ id) : (app.setDisplay id d).slot other = app.slot other := by
  simp [slot, displayFor, setDisplay, h]

theorem slot_setDisplay_of_draft (id : ℕ) {d : SessionDisplay}
    (hdraft : d.draft = (app.displayFor id).draft)
    (hcursor : d.draftCursor = (app.displayFor id).draftCursor) (other : ℕ) :
    (app.setDisplay id d).slot other = app.slot other := by
  by_cases h : other = id
  · subst h
    rw [slot_setDisplay_self, hdraft, hcursor]
    rfl
  · exact slot_setDisplay_of_ne app d h

theorem userTexts_eq_nil {app : TuiApp} (h : app.activeSessionId = none) : app.userTexts = [] := by
  simp [userTexts, h]

theorem olderEntry_zero (index : Option ℕ) : olderEntry index 0 = none := by simp [olderEntry]

theorem leaveHistory_frame :
    app.leaveHistory.displays = app.displays ∧
      app.leaveHistory.attachedSessionId = app.attachedSessionId ∧
      app.leaveHistory.activeSessionId = app.activeSessionId := by
  rw [leaveHistory]
  split <;> exact ⟨rfl, rfl, rfl⟩

theorem slot_stashInput {prev : ℕ} (h : app.attachedSessionId = some prev) (id : ℕ) :
    app.stashInput.slot id = if id = prev then app.input else app.slot id := by
  have hdisplays : app.stashInput.displays = (app.setDisplay prev { app.displayFor prev with
      draft := app.input.text, draftCursor := app.input.cursor }).displays := by
    simp only [stashInput, h]
  rw [slot_congr hdisplays]
  by_cases hid : id = prev
  · subst hid
    rw [if_pos rfl, slot_setDisplay_self]
  · rw [if_neg hid, slot_setDisplay_of_ne _ _ hid]

theorem stashInput_of_none {app : TuiApp} (h : app.attachedSessionId = none) :
    app.stashInput = app := by
  simp only [stashInput, h]

theorem swapDraft_input (target : ℕ) :
    (app.swapDraft target).input = app.slot target := rfl

theorem slot_swapDraft_of_ne {target id : ℕ} (h : id ≠ target) :
    (app.swapDraft target).slot id = app.slot id :=
  slot_setDisplay_of_ne app _ h

theorem slot_switchTo (target id : ℕ) :
    (app.switchTo target).slot id = (app.persistInputDraft target).slot id :=
  slot_setDisplay_of_draft _ target rfl rfl id

end TuiApp

end Choreo
