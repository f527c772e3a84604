import Choreo.Library.Runs
import Choreo.Tui.App

/-!
# Unsent prompts of the terminal client

What the user left unsent in each session is kept beside the client: only typing, Enter and the
deletion of the session change it. The input bar and the drafts of the sessions hold exactly that,
as long as no event puts a session on screen, or an entry of the history into the bar, without
handing over what is there.
-/

namespace Choreo

open List Option

/-! ### What the user left unsent -/

/-- The client, with what the user left unsent in each session and, under `none`, with no session on
screen; and the draft of before the history was entered. -/
structure Drafts where
  app : TuiApp := {}
  unsent : Option ℕ → InputBuffer := fun _ => {}
  before : InputBuffer := {}

namespace Drafts

variable (s : Drafts)

/-- The user leaves a text in the bar. -/
def leave (d : InputBuffer) : Option ℕ → InputBuffer :=
  Function.update s.unsent s.app.attachedSessionId d

/-- A text typed with no session on screen belongs to the session that comes on screen, unless that
one has a draft. -/
def adopt (id : ℕ) : Option ℕ → InputBuffer :=
  if s.app.attachedSessionId = none then
    Function.update
      (if (s.unsent (some id)).text = [] then Function.update s.unsent (some id) (s.unsent none)
        else s.unsent)
      none {}
  else s.unsent

/-- The same for the session that an event puts on screen, if any. -/
def adoptAny (target : Option ℕ) : Option ℕ → InputBuffer :=
  match target with
  | none => s.unsent
  | some id => s.adopt id

/-- What is unsent after an event. A loaded entry that was not edited is not the user's, neither
when a key leaves it so nor when it is submitted. -/
def unsentAfter (ev : TuiEvent) (app' : TuiApp) : Option ℕ → InputBuffer :=
  match ev with
  | .key _ =>
    s.leave (if s.app.historyEntryText = some app'.input.text then s.before else app'.input)
  | .submit => if s.app.historyEntryText = some s.app.input.text then s.unsent else s.leave {}
  | .sessionDeleted id => Function.update s.unsent (some id) {}
  | ev => s.adoptAny (s.app.switchTarget ev)

def beforeAfter (ev : TuiEvent) : InputBuffer :=
  match ev with
  | .up => if s.app.historyIndex = none then s.unsent s.app.attachedSessionId else s.before
  | _ => s.before

section Spec

variable (graphemes : List Char → List (List Char))

/-- The client handles an event. -/
def step (ev : TuiEvent) (s : Drafts) : Option Drafts :=
  (s.app.step graphemes ev).map fun app' =>
    { app := app', unsent := s.unsentAfter ev app', before := s.beforeAfter ev }

/-- The bar holds what the user left unsent in the session on screen, outside the history and when a
loaded entry was edited, with the cursor between two characters; the history is that of the session
on screen, and every other session has its unsent prompt as its draft. -/
structure Kept (s : Drafts) : Prop where
  outside : ∀ id, s.app.attachedSessionId = some id → s.app.historyIndex = none →
    s.app.input = s.unsent (some id)
  edited : ∀ id, s.app.attachedSessionId = some id → s.app.entryEdited = true →
    s.app.input = s.unsent (some id)
  onBoundary : s.app.input.OnBoundary
  history : s.app.activeSessionId = s.app.attachedSessionId
  offScreen : ∀ id, s.app.attachedSessionId ≠ some id → s.app.slot id = s.unsent (some id)

/-- An unsent prompt changes only by a key or Enter while its session is on screen, or by the
deletion of its session; a session without one may get the text typed with no session on screen. -/
def OnlyByUser (s : Drafts) : Prop :=
  ∀ ev s', step graphemes ev s = some s' → ∀ id,
    s'.unsent (some id) = s.unsent (some id) ∨
      (s.app.attachedSessionId = some id ∧ (ev = .submit ∨ ∃ key, ev = .key key)) ∨
      ev = .sessionDeleted id ∨ (s.unsent (some id)).text = []

/-- An event hands the bar over: a reply names the session on screen; a session comes on screen from
none with nothing typed or without a draft; no entry is loaded over an edited one; Enter on an
unedited entry finds no kept draft; and no move by a word ends inside a character. -/
def HandedOver (ev : TuiEvent) (s : Drafts) : Prop :=
  match ev with
  | .key key => ¬ InputBuffer.LandsInside key s.app.input
  | .up => s.app.entryEdited = true →
    TuiApp.olderEntry s.app.historyIndex s.app.userTexts.length = none
  | .down => s.app.entryEdited = true → ∀ idx ∈ s.app.historyIndex,
    TuiApp.newerEntry idx s.app.userTexts.length = none
  | .submit => s.app.historyEntryText = some s.app.input.text → s.app.savedDraft = []
  | .sessionAttached id => s.app.attachedSessionId = some id
  | ev => ∀ id, s.app.switchTarget ev = some id → s.app.attachedSessionId = none →
    s.app.input.text = [] ∨ (s.app.slot id).text = []

end Spec

/-! ### The invariant -/

/-- What holds of the client in every state. -/
structure Inv (s : Drafts) : Prop where
  active : s.app.activeSessionId = s.app.attachedSessionId
  bar : s.app.input.OnBoundary
  unsentOnBoundary : ∀ key, (s.unsent key).OnBoundary
  beforeOnBoundary : s.before.OnBoundary
  outside : s.app.historyIndex = none →
    s.app.historyEntryText = none ∧ s.app.input = s.unsent s.app.attachedSessionId
  inside : s.app.historyIndex ≠ none → s.app.attachedSessionId ≠ none ∧
    { text := s.app.savedDraft, cursor := s.app.savedDraftCursor } = s.before ∧
    ∃ entry, s.app.historyEntryText = some entry ∧ s.unsent s.app.attachedSessionId =
      if s.app.input.text = entry then s.before else s.app.input
  offScreen : ∀ id, s.app.attachedSessionId ≠ some id → s.app.slot id = s.unsent (some id)
  noScreen : s.app.attachedSessionId ≠ none → s.unsent none = {}

variable {s : Drafts}

theorem Inv.leaveHistory (h : s.Inv) :
    s.app.leaveHistory.input = s.unsent s.app.attachedSessionId ∧
      s.app.leaveHistory.historyIndex = none ∧ s.app.leaveHistory.historyEntryText = none := by
  rw [TuiApp.leaveHistory]
  by_cases hnav : s.app.historyIndex = none
  · rw [hnav]
    exact ⟨(h.outside hnav).2, hnav, (h.outside hnav).1⟩
  · obtain ⟨-, hsaved, entry, hentry, hunsent⟩ := h.inside hnav
    rw [if_pos (isSome_iff_ne_none.2 hnav)]
    refine ⟨?_, rfl, rfl⟩
    rw [hunsent, ← hsaved]
    by_cases htext : s.app.input.text = entry <;>
      simp [TuiApp.restoreHistoryDraft, TuiApp.entryEdited, hentry, htext]

theorem Inv.edited (h : s.Inv) (hedited : s.app.entryEdited = true) :
    s.app.input = s.unsent s.app.attachedSessionId := by
  by_cases hnav : s.app.historyIndex = none
  · exact (h.outside hnav).2
  · obtain ⟨-, -, entry, hentry, hunsent⟩ := h.inside hnav
    have hne : s.app.input.text ≠ entry := by
      simpa [TuiApp.entryEdited, hentry] using hedited
    rw [hunsent, if_neg hne]

theorem Inv.kept (h : s.Inv) : s.Kept where
  outside _ hid hnav := hid ▸ (h.outside hnav).2
  edited _ hid hedited := hid ▸ h.edited hedited
  onBoundary := h.bar
  history := h.active
  offScreen := h.offScreen

/-! ### Switching -/

/-- The hand-over puts what is unsent in the other session into the bar, and what is unsent in the
session that is left into its draft. -/
theorem Inv.persistInputDraft (h : s.Inv) {target : ℕ}
    (hfree : s.app.attachedSessionId = none →
      s.app.input.text = [] ∨ (s.app.slot target).text = []) :
    (s.app.persistInputDraft target).input = s.adopt target (some target) ∧
      (∀ id ≠ target, (s.app.persistInputDraft target).slot id = s.adopt target (some id)) ∧
      (s.app.persistInputDraft target).historyIndex = none ∧
      (s.app.persistInputDraft target).historyEntryText = none := by
  obtain ⟨hinput, hnav, hentry⟩ := h.leaveHistory
  obtain ⟨hdisplays, hattached, -⟩ := s.app.leaveHistory_frame
  have hslot := TuiApp.slot_congr hdisplays
  simp only [TuiApp.persistInputDraft]
  generalize s.app.leaveHistory = app at *
  rcases hscreen : s.app.attachedSessionId with _ | prev
  · have hnone : app.attachedSessionId = none := hattached.trans hscreen
    have htarget : s.app.slot target = s.unsent (some target) :=
      h.offScreen target (by rw [hscreen]; simp)
    rw [hscreen] at hinput
    have hbar : s.app.input = s.unsent none := by
      by_cases hidx : s.app.historyIndex = none
      · rw [(h.outside hidx).2, hscreen]
      · exact absurd hscreen (h.inside hidx).1
    have hother (id : ℕ) (hne : id ≠ target) : s.adopt target (some id) = s.unsent (some id) := by
      rw [adopt, if_pos hscreen]
      split <;> simp [hne]
    by_cases htext : app.input.text = []
    · rw [if_neg (by simp [htext]), TuiApp.stashInput_of_none hnone, TuiApp.swapDraft_input]
      refine ⟨?_, fun id hne => ?_, hnav, hentry⟩
      · rw [hslot, htarget, adopt, if_pos hscreen]
        by_cases hempty : (s.unsent (some target)).text = []
        · -- neither the bar nor the session has a text
          have hnew := (h.unsentOnBoundary (some target)).eq_empty hempty
          have hold := (h.unsentOnBoundary none).eq_empty (hinput ▸ htext)
          simp [hnew, hold]
        · simp [hempty]
      · rw [TuiApp.slot_swapDraft_of_ne _ hne, hslot, hother id hne]
        exact h.offScreen id (by rw [hscreen]; simp)
    · rw [if_pos ⟨hnone, htext⟩]
      refine ⟨?_, fun id hne => ?_, hnav, hentry⟩
      · -- the text typed before goes to the session
        have hempty : (s.unsent (some target)).text = [] := by
          rcases hfree hscreen with hbare | hslotEmpty
          · rw [hbar, ← hinput] at hbare
            exact absurd hbare htext
          · rw [← htarget]
            exact hslotEmpty
        simp [adopt, hscreen, hempty, hinput]
      · rw [hslot, hother id hne]
        exact h.offScreen id (by rw [hscreen]; simp)
  · have hsome : app.attachedSessionId = some prev := hattached.trans hscreen
    have hadopt : s.adopt target = s.unsent := by simp [adopt, hscreen]
    rw [hscreen] at hinput
    rw [if_neg (by simp [hsome]), hadopt, TuiApp.swapDraft_input, TuiApp.slot_stashInput _ hsome]
    refine ⟨?_, fun id hne => ?_, ?_, ?_⟩
    · by_cases heq : target = prev
      · rw [if_pos heq, hinput, heq]
      · rw [if_neg heq, hslot]
        exact h.offScreen target (by rw [hscreen]; simpa using fun h => heq h.symm)
    · rw [TuiApp.slot_swapDraft_of_ne _ hne, TuiApp.slot_stashInput _ hsome]
      by_cases heq : id = prev
      · rw [if_pos heq, hinput, heq]
      · rw [if_neg heq, hslot]
        exact h.offScreen id (by rw [hscreen]; simpa using fun h => heq h.symm)
    · simp [TuiApp.swapDraft, TuiApp.setDisplay, TuiApp.stashInput, hsome, hnav]
    · simp [TuiApp.swapDraft, TuiApp.setDisplay, TuiApp.stashInput, hsome, hentry]

theorem Inv.onBoundary_adopt (h : s.Inv) (id : ℕ) (key : Option ℕ) :
    (s.adopt id key).OnBoundary := by
  rw [adopt]
  split
  · rw [Function.update_apply]
    split
    · exact InputBuffer.onBoundary_empty
    · split
      · rw [Function.update_apply]
        split <;> exact h.unsentOnBoundary _
      · exact h.unsentOnBoundary _
  · exact h.unsentOnBoundary _

/-- Switching to a session keeps the invariant. -/
theorem Inv.switchTo (h : s.Inv) {target : ℕ}
    (hfree : s.app.attachedSessionId = none →
      s.app.input.text = [] ∨ (s.app.slot target).text = []) :
    Inv { app := s.app.switchTo target, unsent := s.adopt target, before := s.before } := by
  obtain ⟨hinput, hslot, hnav, hentry⟩ := h.persistInputDraft hfree
  have hbar : (s.app.switchTo target).input = s.adopt target (some target) := hinput
  refine
    { active := rfl
      bar := hbar ▸ h.onBoundary_adopt target _
      unsentOnBoundary := h.onBoundary_adopt target
      beforeOnBoundary := h.beforeOnBoundary
      outside := fun _ => ⟨hentry, hinput⟩
      inside := fun hne => absurd hnav hne
      offScreen := fun id hid => ?_
      noScreen := fun _ => ?_ }
  · rw [TuiApp.slot_switchTo]
    exact hslot id fun heq => hid (heq ▸ rfl)
  · by_cases hscreen : s.app.attachedSessionId = none
    · simp [adopt, hscreen]
    · simpa [adopt, hscreen] using h.noScreen hscreen

variable (app : TuiApp)

/-! ### Every event keeps the invariant -/

theorem slot_refresh (ev : TuiEvent) (id : ℕ) :
    (app.refresh ev).slot id = app.slot id := by
  rcases ev with _ | _ | _ | _ | _ | _ | _ | _ | _ | _ | _ | ⟨session, turns⟩
  case turns =>
    exact TuiApp.slot_setDisplay_of_draft app session (d := { app.displayFor session with
      turns := turns }) rfl rfl id
  all_goals rfl

theorem Inv.refresh (h : s.Inv) (ev : TuiEvent) : Inv { s with app := s.app.refresh ev } := by
  have hoff (id : ℕ) (hid : s.app.attachedSessionId ≠ some id) :
      (s.app.refresh ev).slot id = s.unsent (some id) :=
    (slot_refresh s.app ev id).trans (h.offScreen id hid)
  cases ev <;>
    exact ⟨h.active, h.bar, h.unsentOnBoundary, h.beforeOnBoundary, h.outside, h.inside, hoff,
      h.noScreen⟩

theorem refresh_frame (ev : TuiEvent) :
    (app.refresh ev).attachedSessionId = app.attachedSessionId ∧
      (app.refresh ev).input = app.input := by
  cases ev <;> exact ⟨rfl, rfl⟩

theorem Inv.switchToAny (h : s.Inv) (ev : TuiEvent)
    (hfree : ∀ id, s.app.switchTarget ev = some id → s.app.attachedSessionId = none →
      s.app.input.text = [] ∨ (s.app.slot id).text = []) :
    Inv { app := (s.app.refresh ev).switchToAny (s.app.switchTarget ev)
          unsent := s.adoptAny (s.app.switchTarget ev)
          before := s.before } := by
  rcases htarget : s.app.switchTarget ev with _ | target
  · exact h.refresh ev
  · obtain ⟨hattached, hinput⟩ := refresh_frame s.app ev
    have hadopt : s.adopt target = Drafts.adopt { s with app := s.app.refresh ev } target := by
      simp only [adopt, hattached]
    simp only [adoptAny, hadopt]
    refine (h.refresh ev).switchTo fun hnone => ?_
    rw [hinput, slot_refresh]
    exact hfree target htarget (hattached ▸ hnone)

theorem leave_self (d : InputBuffer) : s.leave d s.app.attachedSessionId = d :=
  Function.update_self _ _ _

theorem leave_of_ne {key : Option ℕ} (d : InputBuffer) (h : s.app.attachedSessionId ≠ key) :
    s.leave d key = s.unsent key :=
  Function.update_of_ne (Ne.symm h) _ _

theorem Inv.onBoundary_leave (h : s.Inv) {d : InputBuffer} (hd : d.OnBoundary) (key : Option ℕ) :
    (s.leave d key).OnBoundary := by
  by_cases hkey : s.app.attachedSessionId = key
  · rw [← hkey, leave_self]
    exact hd
  · rw [leave_of_ne d hkey]
    exact h.unsentOnBoundary key

/-- Leaving another text in the bar keeps the invariant. -/
theorem Inv.key (h : s.Inv) {b : InputBuffer} (hb : b.OnBoundary) :
    Inv { app := { s.app with input := b }
          unsent := s.leave (if s.app.historyEntryText = some b.text then s.before else b)
          before := s.before } where
  active := h.active
  bar := hb
  unsentOnBoundary := h.onBoundary_leave (by split; exacts [h.beforeOnBoundary, hb])
  beforeOnBoundary := h.beforeOnBoundary
  outside hnav := by
    obtain ⟨hentry, -⟩ := h.outside hnav
    exact ⟨hentry, by simp [leave, hentry]⟩
  inside hnav := by
    obtain ⟨hscreen, hsaved, entry, hentry, -⟩ := h.inside hnav
    refine ⟨hscreen, hsaved, entry, hentry, ?_⟩
    simp only [leave, Function.update_self, hentry, some.injEq]
    by_cases heq : entry = b.text
    · rw [if_pos heq, if_pos heq.symm]
    · rw [if_neg heq, if_neg (Ne.symm heq)]
  offScreen id hid := (h.offScreen id hid).trans (leave_of_ne (s := s) _ hid).symm
  noScreen hscreen := (leave_of_ne (s := s) _ hscreen).trans (h.noScreen hscreen)

theorem Inv.loadHistoryEntry (h : s.Inv) (hscreen : s.app.attachedSessionId ≠ none)
    (hsaved : { text := s.app.savedDraft, cursor := s.app.savedDraftCursor } = s.before)
    (hunsent : s.unsent s.app.attachedSessionId = s.before) (idx : ℕ) (texts : List (List Char)) :
    Inv { s with app := s.app.loadHistoryEntry idx texts } where
  active := h.active
  bar := ⟨texts.getD idx [], [], (append_nil _).symm, rfl⟩
  unsentOnBoundary := h.unsentOnBoundary
  beforeOnBoundary := h.beforeOnBoundary
  outside hnav := by cases hnav
  inside _ := ⟨hscreen, hsaved, _, rfl, hunsent.trans (if_pos rfl).symm⟩
  offScreen := h.offScreen
  noScreen := h.noScreen

theorem Inv.unsent_eq_before (h : s.Inv) (hnav : s.app.historyIndex ≠ none)
    (hedited : s.app.entryEdited ≠ true) : s.unsent s.app.attachedSessionId = s.before := by
  obtain ⟨-, -, entry, hentry, hunsent⟩ := h.inside hnav
  have htext : s.app.input.text = entry := by
    simpa [TuiApp.entryEdited, hentry] using hedited
  rw [hunsent, if_pos htext]

theorem Inv.stashDraft (h : s.Inv) :
    Inv { app := s.app.stashDraft, unsent := s.unsent, before := s.beforeAfter .up } := by
  rw [TuiApp.stashDraft, beforeAfter]
  by_cases hnav : s.app.historyIndex = none
  · rw [if_pos hnav, if_pos hnav]
    exact ⟨h.active, h.bar, h.unsentOnBoundary, h.unsentOnBoundary _, h.outside,
      fun hne => absurd hnav hne, h.offScreen, h.noScreen⟩
  · rw [if_neg hnav, if_neg hnav]
    exact h

/-- Up keeps the invariant when no entry is loaded over an edited one. -/
theorem Inv.up (h : s.Inv) (hok : s.app.entryEdited = true →
      TuiApp.olderEntry s.app.historyIndex s.app.userTexts.length = none) :
    Inv { app := s.app.navigateHistoryUp, unsent := s.unsent, before := s.beforeAfter .up } := by
  rw [TuiApp.navigateHistoryUp]
  rcases hentry : TuiApp.olderEntry s.app.historyIndex s.app.userTexts.length with _ | idx
  · have hstash := h.stashDraft
    exact ⟨h.active, h.bar, h.unsentOnBoundary, hstash.beforeOnBoundary, h.outside, fun hne => by
      rw [beforeAfter, if_neg hne]; exact h.inside hne, h.offScreen, h.noScreen⟩
  · have hscreen : s.app.attachedSessionId ≠ none := by
      intro hnone
      rw [TuiApp.userTexts_eq_nil (h.active.trans hnone), length_nil,
        TuiApp.olderEntry_zero] at hentry
      cases hentry
    have hedited : s.app.entryEdited ≠ true := fun htrue => by
      rw [hok htrue] at hentry
      cases hentry
    refine h.stashDraft.loadHistoryEntry ?_ ?_ ?_ idx s.app.userTexts <;>
      simp only [TuiApp.stashDraft, beforeAfter] <;> by_cases hnav : s.app.historyIndex = none
    · rwa [if_pos hnav]
    · rwa [if_neg hnav]
    · rw [if_pos hnav, if_pos hnav, ← (h.outside hnav).2]
    · rw [if_neg hnav, if_neg hnav]
      exact (h.inside hnav).2.1
    · rw [if_pos hnav, if_pos hnav]
    · rw [if_neg hnav, if_neg hnav]
      exact h.unsent_eq_before hnav hedited

/-- Down keeps the invariant when no entry is loaded over an edited one. -/
theorem Inv.down (h : s.Inv) (hok : s.app.entryEdited = true → ∀ idx ∈ s.app.historyIndex,
      TuiApp.newerEntry idx s.app.userTexts.length = none) :
    Inv { s with app := s.app.navigateHistoryDown } := by
  rcases hindex : s.app.historyIndex with _ | idx
  · have happ : s.app.navigateHistoryDown = s.app := by
      simp only [TuiApp.navigateHistoryDown, hindex]
    rwa [happ]
  · have hnav : s.app.historyIndex ≠ none := by simp [hindex]
    rcases hentry : TuiApp.newerEntry idx s.app.userTexts.length with _ | prev
    · have happ : s.app.navigateHistoryDown = s.app.leaveHistory := by
        simp [TuiApp.navigateHistoryDown, TuiApp.leaveHistory, hindex, hentry]
      obtain ⟨hinput, hindex', hentry'⟩ := h.leaveHistory
      obtain ⟨hdisplays, hattached, hactive⟩ := s.app.leaveHistory_frame
      rw [happ]
      exact
        { active := by rw [hattached, hactive]; exact h.active
          bar := hinput ▸ h.unsentOnBoundary _
          unsentOnBoundary := h.unsentOnBoundary
          beforeOnBoundary := h.beforeOnBoundary
          outside := fun _ => ⟨hentry', by rw [hattached]; exact hinput⟩
          inside := fun hne => absurd hindex' hne
          offScreen := fun id hid => by
            rw [hattached] at hid
            exact (TuiApp.slot_congr hdisplays id).trans (h.offScreen id hid)
          noScreen := fun hscreen => by
            rw [hattached] at hscreen
            exact h.noScreen hscreen }
    · have happ : s.app.navigateHistoryDown = s.app.loadHistoryEntry prev s.app.userTexts := by
        simp only [TuiApp.navigateHistoryDown, hindex, hentry]
      have hedited : s.app.entryEdited ≠ true := fun htrue => by
        rw [hok htrue idx hindex] at hentry
        cases hentry
      rw [happ]
      exact h.loadHistoryEntry (h.inside hnav).1 (h.inside hnav).2.1
        (h.unsent_eq_before hnav hedited) prev s.app.userTexts

theorem slot_submit {id : ℕ} (h : app.attachedSessionId ≠ some id) :
    app.submit.slot id = app.slot id := by
  simp only [TuiApp.submit, TuiApp.clearCurrentDraft]
  rcases hscreen : app.attachedSessionId with _ | screen
  · rfl
  · exact TuiApp.slot_setDisplay_of_ne _ _ fun heq => h (heq ▸ hscreen)

theorem submit_frame :
    app.submit.input = {} ∧ app.submit.historyIndex = none ∧
      app.submit.historyEntryText = none ∧
      app.submit.attachedSessionId = app.attachedSessionId ∧
      app.submit.activeSessionId = app.activeSessionId := by
  simp only [TuiApp.submit, TuiApp.clearCurrentDraft]
  split <;> exact ⟨rfl, rfl, rfl, rfl, rfl⟩

/-- Enter keeps the invariant when it does not lose a kept draft. -/
theorem Inv.submit (h : s.Inv)
    (hok : s.app.historyEntryText = some s.app.input.text → s.app.savedDraft = []) :
    Inv { s with
      app := s.app.submit
      unsent := if s.app.historyEntryText = some s.app.input.text then s.unsent
        else s.leave {} } := by
  obtain ⟨hinput, hindex, hentry, hattached, hactive⟩ := submit_frame s.app
  have hempty : (if s.app.historyEntryText = some s.app.input.text then s.unsent else s.leave {})
      s.app.attachedSessionId = {} := by
    split
    · rename_i htext
      have hnav : s.app.historyIndex ≠ none := fun hnone => by
        rw [(h.outside hnone).1] at htext
        cases htext
      obtain ⟨-, hsaved, -⟩ := h.inside hnav
      have hedited : s.app.entryEdited ≠ true := by simp [TuiApp.entryEdited, htext]
      rw [h.unsent_eq_before hnav hedited]
      exact h.beforeOnBoundary.eq_empty (by rw [← hsaved]; exact hok htext)
    · exact leave_self {}
  have hother (key : Option ℕ) (hkey : s.app.attachedSessionId ≠ key) :
      (if s.app.historyEntryText = some s.app.input.text then s.unsent else s.leave {}) key =
        s.unsent key := by
    split
    · rfl
    · exact leave_of_ne {} hkey
  generalize (if s.app.historyEntryText = some s.app.input.text then s.unsent else s.leave {}) =
    unsent at hempty hother ⊢
  exact
    { active := by rw [hactive, hattached]; exact h.active
      bar := hinput ▸ InputBuffer.onBoundary_empty
      unsentOnBoundary := fun key => by
        change (unsent key).OnBoundary
        by_cases hkey : s.app.attachedSessionId = key
        · rw [← hkey, hempty]
          exact InputBuffer.onBoundary_empty
        · rw [hother key hkey]
          exact h.unsentOnBoundary key
      beforeOnBoundary := h.beforeOnBoundary
      outside := fun _ => ⟨hentry, by rw [hattached]; exact hinput.trans hempty.symm⟩
      inside := fun hne => absurd hindex hne
      offScreen := fun id hid => by
        rw [hattached] at hid
        exact (slot_submit s.app hid).trans
          ((h.offScreen id hid).trans (hother (some id) hid).symm)
      noScreen := fun hscreen => by
        rw [hattached] at hscreen
        exact (hother none hscreen).trans (h.noScreen hscreen) }

/-- A reply for the session on screen keeps the invariant. -/
theorem Inv.sessionAttached (h : s.Inv) {id : ℕ} (hid : s.app.attachedSessionId = some id) :
    Inv { s with app := s.app.handleSessionAttached id } where
  active := rfl
  bar := h.bar
  unsentOnBoundary := h.unsentOnBoundary
  beforeOnBoundary := h.beforeOnBoundary
  outside hnav := ⟨(h.outside hnav).1, (h.outside hnav).2.trans (by rw [hid]; rfl)⟩
  inside hnav := by
    obtain ⟨-, hsaved, entry, hentry, hunsent⟩ := h.inside hnav
    exact ⟨some_ne_none id, hsaved, entry, hentry, by rw [hid] at hunsent; exact hunsent⟩
  offScreen other hne :=
    (TuiApp.slot_setDisplay_of_draft s.app id rfl rfl other).trans
      (h.offScreen other fun heq => hne (hid.symm.trans heq))
  noScreen _ := h.noScreen (hid ▸ some_ne_none id)

theorem slot_handleSessionDeleted (id other : ℕ) :
    (app.handleSessionDeleted id).slot other = if other = id then {} else app.slot other := by
  have hdisplays : (app.handleSessionDeleted id).displays =
      Function.update app.displays id none := by
    rw [TuiApp.handleSessionDeleted]
    split <;> rfl
  simp only [TuiApp.slot, TuiApp.displayFor, hdisplays, Function.update_apply]
  split <;> rfl

theorem Inv.sessionDeleted (h : s.Inv) (id : ℕ) :
    Inv { s with
      app := s.app.handleSessionDeleted id
      unsent := Function.update s.unsent (some id) {} } := by
  have hslot (other : ℕ) (hother : s.app.attachedSessionId ≠ some other ∨ other = id) :
      (s.app.handleSessionDeleted id).slot other =
        Function.update s.unsent (some id) {} (some other) := by
    rw [slot_handleSessionDeleted, Function.update_apply]
    by_cases heq : other = id
    · simp [heq]
    · rw [if_neg heq, if_neg (by simpa using heq)]
      exact h.offScreen other (hother.resolve_right heq)
  have hboundary (key : Option ℕ) :
      (Function.update s.unsent (some id) {} key).OnBoundary := by
    rw [Function.update_apply]
    split
    · exact InputBuffer.onBoundary_empty
    · exact h.unsentOnBoundary key
  have hnone : Function.update s.unsent (some id) {} none = s.unsent none :=
    Function.update_of_ne (some_ne_none id).symm _ _
  by_cases hid : s.app.attachedSessionId = some id
  · have happ : s.app.handleSessionDeleted id = { s.app with
        sessions := s.app.sessions.filter (·.sessionId != id)
        displays := Function.update s.app.displays id none
        attachedSessionId := none, activeSessionId := none, input := {}
        historyIndex := none, historyEntryText := none, savedDraft := []
        savedDraftCursor := 0 } := by
      simp [TuiApp.handleSessionDeleted, TuiApp.commitToHistory, hid]
    have hempty : s.unsent none = {} := h.noScreen (hid ▸ some_ne_none id)
    have hoff (other : ℕ) : (s.app.handleSessionDeleted id).slot other =
        Function.update s.unsent (some id) {} (some other) := by
      by_cases heq : other = id
      · exact hslot other (.inr heq)
      · exact hslot other (.inl fun h => heq (some.inj (h.symm.trans hid)))
    rw [happ] at hoff ⊢
    exact ⟨rfl, InputBuffer.onBoundary_empty, hboundary, h.beforeOnBoundary,
      fun _ => ⟨rfl, (hnone.trans hempty).symm⟩, fun hne => absurd rfl hne,
      fun other _ => hoff other, fun hne => absurd rfl hne⟩
  · have happ : s.app.handleSessionDeleted id = { s.app with
        sessions := s.app.sessions.filter (·.sessionId != id)
        displays := Function.update s.app.displays id none } := by
      simp [TuiApp.handleSessionDeleted, hid]
    have hsame : Function.update s.unsent (some id) {} s.app.attachedSessionId =
        s.unsent s.app.attachedSessionId := Function.update_of_ne hid _ _
    rw [happ] at hslot ⊢
    refine ⟨h.active, h.bar, hboundary, h.beforeOnBoundary, fun hnav => ?_, fun hnav => ?_,
      fun other hother => hslot other (.inl hother), fun hne => hnone.trans (h.noScreen hne)⟩
    · exact ⟨(h.outside hnav).1, (h.outside hnav).2.trans hsame.symm⟩
    · obtain ⟨hscreen, hsaved, entry, hentry, hunsent⟩ := h.inside hnav
      exact ⟨hscreen, hsaved, entry, hentry, hsame.trans hunsent⟩

/-! ### Runs -/

variable (graphemes : List Char → List (List Char))

/-- An event that hands the bar over keeps the invariant. -/
theorem Inv.step (h : s.Inv) {ev : TuiEvent} {s' : Drafts} (hok : s.HandedOver ev)
    (hstep : Drafts.step graphemes ev s = some s') : s'.Inv := by
  obtain ⟨app', happ, rfl⟩ := map_eq_some_iff.1 hstep
  rcases ev with key | _ | _ | _ | page | id | ⟨id, parent⟩ | sessions | id | ⟨id, isActive⟩ | id |
    ⟨id, turns⟩ <;> simp only [TuiApp.step] at happ
  case key =>
    split at happ
    · obtain ⟨b, hkey, rfl⟩ := map_eq_some_iff.1 happ
      exact h.key (InputBuffer.onBoundary_of_handleKey graphemes h.bar hok hkey)
    · cases happ
  case up =>
    split at happ
    · cases happ
      exact h.up hok
    · cases happ
  case down =>
    split at happ
    · cases happ
      exact h.down hok
    · cases happ
  case submit =>
    split at happ
    · cases happ
      exact h.submit hok
    · cases happ
  case sessionAttached =>
    cases happ
    exact h.sessionAttached hok
  case sessionDeleted =>
    cases happ
    exact h.sessionDeleted id
  all_goals
    cases happ
    exact h.switchToAny _ hok

theorem onlyByUser : s.OnlyByUser graphemes := by
  intro ev s' hstep id
  obtain ⟨app', -, rfl⟩ := map_eq_some_iff.1 hstep
  have hleave (d : InputBuffer) :
      s.leave d (some id) = s.unsent (some id) ∨ s.app.attachedSessionId = some id := by
    by_cases hscreen : s.app.attachedSessionId = some id
    · exact .inr hscreen
    · exact .inl (leave_of_ne d hscreen)
  have hadopt (target : ℕ) : s.adopt target (some id) = s.unsent (some id) ∨
      (s.unsent (some id)).text = [] := by
    rw [adopt]
    split
    · rw [Function.update_of_ne (some_ne_none id)]
      split
      · by_cases heq : id = target
        · subst heq
          exact .inr ‹_›
        · exact .inl (Function.update_of_ne (by simpa using heq) _ _)
      · exact .inl rfl
    · exact .inl rfl
  have hswitch : s.adoptAny (s.app.switchTarget ev) (some id) = s.unsent (some id) ∨
      (s.unsent (some id)).text = [] := by
    rcases s.app.switchTarget ev with _ | target
    · exact .inl rfl
    · exact hadopt target
  rcases ev with key | _ | _ | _ | page | id' | ⟨id', parent⟩ | sessions | id' | ⟨id', isActive⟩ |
    id' | ⟨id', turns⟩
  case key =>
    rcases hleave _ with hsame | hscreen
    · exact .inl hsame
    · exact .inr (.inl ⟨hscreen, .inr ⟨key, rfl⟩⟩)
  case submit =>
    by_cases htext : s.app.historyEntryText = some s.app.input.text
    · exact .inl (congrFun (if_pos htext) _)
    · rcases hleave {} with hsame | hscreen
      · exact .inl ((congrFun (if_neg htext) _).trans hsame)
      · exact .inr (.inl ⟨hscreen, .inl rfl⟩)
  case sessionDeleted =>
    by_cases heq : id = id'
    · exact .inr (.inr (.inl (heq ▸ rfl)))
    · exact .inl (Function.update_of_ne (by simpa using heq) _ _)
  all_goals exact hswitch.imp_right fun hempty => .inr (.inr hempty)

/-- The client when it starts. -/
theorem inv_start : Inv {} where
  active := rfl
  bar := InputBuffer.onBoundary_empty
  unsentOnBoundary _ := InputBuffer.onBoundary_empty
  beforeOnBoundary := InputBuffer.onBoundary_empty
  outside _ := ⟨rfl, rfl⟩
  inside hne := absurd rfl hne
  offScreen _ _ := rfl
  noScreen _ := rfl

/-- In every run whose events hand the bar over, the bar holds in every state what the user left
unsent in the session on screen, and only the user gives an unsent prompt up. -/
theorem kept_of_handedOver {evs : List TuiEvent} {s : Drafts}
    (hrun : StepSystem.run (step graphemes) evs {} = some s)
    (hok : StepSystem.Along (step graphemes) (fun ev s => s.HandedOver ev) evs {}) :
    s.Kept ∧ s.OnlyByUser graphemes :=
  have hinv : s.Inv := StepSystem.invariant_of_along (fun _ _ _ hg h hs => h.step graphemes hg hs)
    inv_start hok hrun
  ⟨hinv.kept, s.onlyByUser graphemes⟩

/-! ### A late reply -/

namespace Sample

/-- Every character is one character to the user. -/
def singleChars (cs : List Char) : List (List Char) := cs.map fun c => [c]

/-- Two sessions are listed, the first comes on screen, and the user types a prompt there and goes
to the second one. -/
def typedAndLeft : List TuiEvent :=
  [.sessions [{ sessionId := 1 }, { sessionId := 2 }], .key (.insert ['h', 'i']),
    .attachToSession 2]

/-- The user comes back to the first session. -/
theorem handedOver_typedAndLeft :
    StepSystem.Along (step singleChars) (fun ev s => s.HandedOver ev)
      (typedAndLeft ++ [.attachToSession 1]) {} := by
  refine ⟨fun id _ _ => .inl rfl, ?_, fun id _ h => ?_, fun id _ h => ?_, trivial⟩
  · rintro ⟨h | h, -⟩ <;> cases h
  · cases h
  · cases h

theorem kept_typedAndLeft :
    ∃ s, StepSystem.run (step singleChars) (typedAndLeft ++ [.attachToSession 1]) {} = some s ∧
      s.app.input.text = ['h', 'i'] ∧ s.Kept ∧ s.OnlyByUser singleChars :=
  ⟨_, rfl, rfl, kept_of_handedOver singleChars rfl handedOver_typedAndLeft⟩

/-- The reply that the first session was attached arrives when the second one is on screen: the
first comes back on screen without its prompt. -/
theorem not_kept_lateReply :
    ∃ s, StepSystem.run (step singleChars) (typedAndLeft ++ [.sessionAttached 1]) {} = some s ∧
      ¬ s.Kept := by
  refine ⟨_, rfl, fun h => ?_⟩
  exact absurd (h.outside 1 rfl rfl) (by decide)

end Sample

end Drafts

end Choreo
