import Mathlib.Data.List.TakeWhile
import Choreo.Tui.LayoutRuns

/-!
# Which turn is on a row of the screen

The history is drawn from the newest turn up (`render_history` of `choreo-tui/src/render/mod.rs`),
and a click is looked up in the running totals of the heights (`find_turn_at_row` of
`choreo-tui/src/state/mod.rs`). Both mean the same turn as long as every turn is drawn with the rows
it was laid out with.
-/

namespace Choreo

open List Option

/-- How far the history is scrolled up, what content that grew has added included. -/
structure HistoryScrollState where
  scroll : ℕ
  scrollCompensation : ℕ

/-- The rows scrolled up, as far as there are any. -/
def HistoryScrollState.effectiveScroll (scroll : HistoryScrollState) (maxScroll : ℕ) : ℕ :=
  min (scroll.scroll + scroll.scrollCompensation) maxScroll

/-- Where the loop over the turns is: the rows below the screen that are still to be skipped, the
rows of the screen that are left, and the row above which the next block goes. -/
structure DrawCursor where
  rowsToSkip : ℕ
  rowsRemaining : ℕ
  y : ℕ

/-- A block on screen: its turn, its first row in the turn, and its rows on screen from `topLine`
on, which begin at row `y`. -/
structure DrawnBlock where
  turn : ℕ
  start : ℕ
  topLine : ℕ
  y : ℕ
  visibleHeight : ℕ

/-- The part of a block that is on screen: its first row and the number of rows. -/
def clippedArea (fullHeight : ℕ) (c : DrawCursor) : DrawCursor × Option (ℕ × ℕ) :=
  if fullHeight ≤ c.rowsToSkip then
    ({ c with rowsToSkip := c.rowsToSkip - fullHeight }, none)
  else
    let visibleHeight := min (fullHeight - c.rowsToSkip) c.rowsRemaining
    if visibleHeight = 0 then (c, none)
    else
      let bottomLine := fullHeight - c.rowsToSkip
      ({ rowsToSkip := 0
         rowsRemaining := c.rowsRemaining - visibleHeight
         y := c.y - visibleHeight }, some (bottomLine - visibleHeight, visibleHeight))

/-- Draws a block. -/
def renderBlock (turn start fullHeight : ℕ) (st : DrawCursor × List DrawnBlock) :
    DrawCursor × List DrawnBlock :=
  match clippedArea fullHeight st.1 with
  | (c, none) => (c, st.2)
  | (c, some (topLine, visibleHeight)) => (c, ⟨turn, start, topLine, c.y, visibleHeight⟩ :: st.2)

/-- Draws the images of a turn, the last one first, and then its text. -/
def renderTurn (vp : HistoryViewport) (turn textHeight imgCount : ℕ)
    (st : DrawCursor × List DrawnBlock) : DrawCursor × List DrawnBlock :=
  renderBlock turn 0 textHeight ((List.range imgCount).foldr
    (fun k => renderBlock turn (textHeight + k * vp.imageBlockHeight) vp.imageBlockHeight) st)

def drawnAt (blocks : List DrawnBlock) (row : ℕ) : Option (ℕ × ℕ) :=
  (blocks.find? fun b => b.y ≤ row && row < b.y + b.visibleHeight).map fun b =>
    (b.turn, b.start + b.topLine + (row - b.y))

namespace SessionDisplayState

variable {Line : Type*} (r : Renderer Line) (vp : HistoryViewport)

def totalHistoryHeight (s : SessionDisplayState Line) : ℕ := s.heightPrefix.getLast?.getD 0

variable (scroll : HistoryScrollState)

def effectiveScroll (s : SessionDisplayState Line) : ℕ :=
  scroll.effectiveScroll (s.totalHistoryHeight - vp.height)

/-- The lines that are drawn for a turn: the reasoning is shown as when the turn was laid out. -/
def drawnLines (s : SessionDisplayState Line) (i : ℕ) (p : ℕ × Turn) : RenderedTurn Line :=
  let default := ((s.turnLayouts[i]?).map (·.reasoningDefaultExpanded)).getD
    (reasoningExpandedDefault p.2)
  let key := { s.cacheKey vp p.1 p.2 with
    reasoningExpanded := s.effectiveReasoningExpanded p.1 default }
  (cachedOrComputeLines (s.renderCache.getD i none) key
    (r.rendered vp p.2 key.reasoningExpanded key.toolResultsCollapsed)).rendered

/-- Draws the first `n` turns that are laid out, the newest one first. -/
def renderTurns (s : SessionDisplayState Line) :
    ℕ → DrawCursor × List DrawnBlock → DrawCursor × List DrawnBlock
  | 0, st => st
  | i + 1, st =>
    if st.1.rowsRemaining = 0 then st
    else
      let id := s.visibleTurnIds.getD i 0
      match s.view.turns[id]? with
      | none => renderTurns s i st
      | some turn =>
        if turn.undone then renderTurns s i st
        else renderTurns s i (renderTurn vp i (s.drawnLines r vp i (id, turn)).height
          turn.displayedImages.length st)

def renderHistory (s : SessionDisplayState Line) : List DrawnBlock :=
  if vp.width = 0 ∨ vp.height = 0 then []
  else
    (s.renderTurns r vp s.visibleTurnIds.length
      (⟨s.effectiveScroll vp scroll, vp.height, vp.height⟩, [])).2

def turnAtLine (s : SessionDisplayState Line) (line : ℕ) : ℕ × ℕ :=
  -- the totals never fall, so the binary search finds the first one above the line
  let i := (s.heightPrefix.takeWhile (· ≤ line)).length
  (i, line - (if i = 0 then 0 else s.heightPrefix.getD (i - 1) 0))

/-- The turn on a row of the screen as a click finds it. -/
def findTurnAtRow (s : SessionDisplayState Line) (row : ℕ) :
    Option (ℕ × ℕ) :=
  if vp.height ≤ row then none
  else
    let scrolled := s.effectiveScroll vp scroll + vp.height
    let line := row + s.totalHistoryHeight
    if line < scrolled then none
    else if s.totalHistoryHeight ≤ line - scrolled then none
    else if (s.turnAtLine (line - scrolled)).1 < s.heightPrefix.length then
      some (s.turnAtLine (line - scrolled))
    else none

end SessionDisplayState

/-! ### Drawing -/

/-- Where the loop is when the content lines from `line` on were drawn, of which those up to
`bottom` are above the lower edge of the screen. -/
def DrawCursor.at (height bottom line : ℕ) : DrawCursor :=
  ⟨line - bottom, height - (bottom - line), height - (bottom - line)⟩

/-- The content lines from `line` on are on screen, each as `f` says. -/
structure Shows (height bottom : ℕ) (f : ℕ → ℕ × ℕ) (line : ℕ)
    (st : DrawCursor × List DrawnBlock) : Prop where
  cursor : st.1 = .at height bottom line
  rows : ∀ row, drawnAt st.2 row =
    if row < height ∧ height + line ≤ row + bottom then some (f (row + bottom - height)) else none

variable {height bottom : ℕ} {f : ℕ → ℕ × ℕ} {st : DrawCursor × List DrawnBlock}

/-- A block goes above what is on screen. -/
theorem Shows.renderBlock {turn start fullHeight line : ℕ} (hheight : 0 < height)
    (h : Shows height bottom f (line + fullHeight) st)
    (hf : ∀ k < fullHeight, f (line + k) = (turn, start + k)) :
    Shows height bottom f line (renderBlock turn start fullHeight st) := by
  obtain ⟨⟨skip, remaining, y⟩, blocks⟩ := st
  obtain ⟨hcursor, hrows⟩ := h
  rw [DrawCursor.at, DrawCursor.mk.injEq] at hcursor
  obtain ⟨hskip, hremaining, hy⟩ := hcursor
  rw [Choreo.renderBlock, clippedArea]
  dsimp only at hskip hremaining hy hrows ⊢
  by_cases hbelow : fullHeight ≤ skip
  · rw [if_pos hbelow]
    refine ⟨?_, fun row => (hrows row).trans ?_⟩
    · rw [DrawCursor.at, DrawCursor.mk.injEq]
      omega
    · exact if_congr (by omega) rfl rfl
  · rw [if_neg hbelow]
    by_cases hfull : min (fullHeight - skip) remaining = 0
    · rw [if_pos hfull]
      refine ⟨?_, fun row => (hrows row).trans ?_⟩
      · rw [DrawCursor.at, DrawCursor.mk.injEq]
        omega
      · exact if_congr (by omega) rfl rfl
    · rw [if_neg hfull]
      refine ⟨?_, fun row => ?_⟩
      · rw [DrawCursor.at, DrawCursor.mk.injEq]
        omega
      · rw [drawnAt, List.find?_cons]
        dsimp only
        by_cases hon : y - min (fullHeight - skip) remaining ≤ row ∧
            row < y - min (fullHeight - skip) remaining + min (fullHeight - skip) remaining
        · have hline : row + bottom - height = line + (row + bottom - height - line) := by omega
          rw [if_pos (by omega), hline, hf _ (by omega)]
          simp only [hon.1, hon.2, decide_true, Bool.and_self, map_some, some.injEq,
            Prod.mk.injEq, true_and]
          omega
        · have hoff : (decide (y - min (fullHeight - skip) remaining ≤ row) &&
              decide (row < y - min (fullHeight - skip) remaining +
                min (fullHeight - skip) remaining)) = false := by
            rw [← Bool.decide_and, decide_eq_false hon]
          rw [hoff]
          exact (hrows row).trans (if_congr (by omega) rfl rfl)

/-- A turn goes above what is on screen: below its text are its images. -/
theorem Shows.renderTurn {vp : HistoryViewport} {turn textHeight imgCount line : ℕ}
    (hheight : 0 < height)
    (h : Shows height bottom f (line + (textHeight + imgCount * vp.imageBlockHeight)) st)
    (hf : ∀ k < textHeight + imgCount * vp.imageBlockHeight, f (line + k) = (turn, k)) :
    Shows height bottom f line (renderTurn vp turn textHeight imgCount st) := by
  have himages : Shows height bottom f (line + textHeight) ((List.range imgCount).foldr
      (fun k => Choreo.renderBlock turn (textHeight + k * vp.imageBlockHeight) vp.imageBlockHeight)
      st) := by
    induction imgCount generalizing st with
    | zero => simpa using h
    | succ n ih =>
      have hsum : line + (textHeight + (n + 1) * vp.imageBlockHeight) =
          line + (textHeight + n * vp.imageBlockHeight) + vp.imageBlockHeight := by
        rw [Nat.succ_mul, Nat.add_assoc, Nat.add_assoc]
      rw [Nat.succ_mul] at hf
      rw [hsum] at h
      rw [range_succ, foldr_append]
      refine ih (h.renderBlock hheight fun k hk => ?_) fun k hk => hf k (by omega)
      rw [Nat.add_assoc, hf _ (by omega)]
  exact himages.renderBlock hheight fun k hk => by rw [hf k (by omega), Nat.zero_add]

/-! ### Content lines -/

theorem getElem?_prefixSums (total : ℕ) (heights : List ℕ) {i : ℕ} (hi : i < heights.length) :
    (prefixSums total heights)[i]? = some (total + (heights.take (i + 1)).sum) := by
  induction heights generalizing total i with
  | nil => cases hi
  | cons h hs ih =>
    rw [prefixSums]
    rcases i with _ | i
    · simp
    · rw [List.getElem?_cons_succ, ih _ (Nat.lt_of_succ_lt_succ hi), take_succ_cons,
        sum_cons, Nat.add_assoc]

theorem length_prefixSums (total : ℕ) (heights : List ℕ) :
    (prefixSums total heights).length = heights.length := by
  induction heights generalizing total with
  | nil => rfl
  | cons h hs ih => rw [prefixSums, length_cons, length_cons, ih]

/-- A content line is in the first turn whose total is above it. -/
theorem length_takeWhile_prefixSums {total line i : ℕ} {heights : List ℕ}
    (hi : i < heights.length) (hge : total + (heights.take i).sum ≤ line)
    (hlt : line < total + (heights.take (i + 1)).sum) :
    ((prefixSums total heights).takeWhile (· ≤ line)).length = i := by
  induction heights generalizing total i with
  | nil => cases hi
  | cons h hs ih =>
    rw [prefixSums, takeWhile_cons]
    rcases i with _ | i
    · rw [take_succ_cons, sum_cons, take_zero, sum_nil] at hlt
      rw [if_neg (by simpa using hlt), length_nil]
    · rw [take_succ_cons, sum_cons, ← Nat.add_assoc] at hge hlt
      rw [if_pos (decide_eq_true (by omega)), length_cons,
        ih (Nat.lt_of_succ_lt_succ hi) hge hlt]

namespace SessionDisplayState

variable {Line : Type*} {r : Renderer Line} {vp : HistoryViewport} {s : SessionDisplayState Line}

theorem totalHistoryHeight_eq (h : s.heightPrefix = prefixSums 0 s.turnHeights) :
    s.totalHistoryHeight = s.turnHeights.sum := by
  rw [totalHistoryHeight, h, List.getLast?_eq_getElem?, length_prefixSums]
  rcases hnil : s.turnHeights with _ | ⟨height, heights⟩
  · rfl
  · rw [getElem?_prefixSums _ _ (by simp)]
    simp

theorem turnAtLine_eq (h : s.heightPrefix = prefixSums 0 s.turnHeights) {i k : ℕ}
    (hi : i < s.turnHeights.length) (hk : k < s.turnHeights[i]) :
    s.turnAtLine ((s.turnHeights.take i).sum + k) = (i, k) := by
  have htake := sum_take_succ s.turnHeights i hi
  have hlength : ((prefixSums 0 s.turnHeights).takeWhile
      (· ≤ (s.turnHeights.take i).sum + k)).length = i :=
    length_takeWhile_prefixSums hi (by omega) (by omega)
  rw [turnAtLine, h, hlength]
  rcases i with _ | i
  · simp
  · rw [if_neg (Nat.succ_ne_zero i), Nat.add_sub_cancel, getD_eq_getElem?_getD,
      getElem?_prefixSums 0 _ (by omega), getD_some, Nat.zero_add, Nat.add_sub_cancel_left]

/-- Every turn that is not undone is laid out, with the rows it is drawn with. -/
structure Fits (r : Renderer Line) (vp : HistoryViewport) (s : SessionDisplayState Line) :
    Prop where
  visible : s.visibleTurnIds = (live s.view.turns).map Prod.fst
  length : s.turnHeights.length = s.visibleTurnIds.length
  sums : s.heightPrefix = prefixSums 0 s.turnHeights
  rows : ∀ i p, (live s.view.turns)[i]? = some p →
    s.turnHeights[i]? = some (heightOf vp p.2 (s.drawnLines r vp i p))

/-- The turns go on screen one above the other. -/
theorem Fits.renderTurns (h : s.Fits r vp) {height bottom n : ℕ}
    {st : DrawCursor × List DrawnBlock} (hheight : 0 < height) (hn : n ≤ s.turnHeights.length)
    (hst : Shows height bottom s.turnAtLine (s.turnHeights.take n).sum st) :
    Shows height bottom s.turnAtLine 0 (s.renderTurns r vp n st) := by
  induction n generalizing st with
  | zero => exact hst
  | succ i ih =>
    rw [SessionDisplayState.renderTurns]
    by_cases hfull : st.1.rowsRemaining = 0
    · rw [if_pos hfull]
      obtain ⟨hcursor, hrows⟩ := hst
      rw [hcursor] at hfull
      simp only [DrawCursor.at] at hfull
      refine ⟨hcursor.trans ?_, fun row => (hrows row).trans ?_⟩
      · rw [DrawCursor.at, DrawCursor.at, DrawCursor.mk.injEq]
        omega
      · exact if_congr (by omega) rfl rfl
    · have hi : i < s.visibleTurnIds.length := h.length ▸ hn
      rw [h.visible, List.length_map] at hi
      obtain ⟨hget, hundone⟩ := mem_live.1 (getElem_mem hi)
      have hid : s.visibleTurnIds.getD i 0 = ((live s.view.turns)[i]).1 := by
        rw [h.visible, getD_eq_getElem?_getD, List.getElem?_map, List.getElem?_eq_getElem hi]
        rfl
      have hrows := h.rows i _ (List.getElem?_eq_getElem hi)
      rw [if_neg hfull]
      dsimp only
      rw [hid, hget]
      dsimp only
      rw [hundone, if_neg Bool.false_ne_true]
      have hlt : i < s.turnHeights.length := hn
      rw [List.getElem?_eq_getElem hlt, some.injEq] at hrows
      rw [sum_take_succ _ _ hlt, hrows] at hst
      refine ih (Nat.le_of_lt hn) (Shows.renderTurn hheight hst fun k hk => ?_)
      exact turnAtLine_eq h.sums hlt (hrows ▸ hk)

theorem turnAtLine_lt {line : ℕ} (h : line < s.totalHistoryHeight) :
    (s.turnAtLine line).1 < s.heightPrefix.length := by
  rw [totalHistoryHeight] at h
  refine lt_of_le_of_ne (List.takeWhile_prefix _).length_le fun heq => ?_
  have hall := (List.takeWhile_prefix _).eq_of_length heq
  rcases hlast : s.heightPrefix.getLast? with _ | last
  · rw [hlast] at h
    exact Nat.not_lt_zero _ h
  · have hmem := List.mem_of_getLast? hlast
    rw [← hall] at hmem
    have hle := List.all_eq_true.1 all_takeWhile last hmem
    rw [decide_eq_true_eq] at hle
    rw [hlast, getD_some] at h
    omega

/-- What fits is found where it is drawn. -/
theorem Fits.findTurnAtRow_eq (h : s.Fits r vp) (hwidth : 0 < vp.width)
    (scroll : HistoryScrollState) (row : ℕ) :
    s.findTurnAtRow vp scroll row = drawnAt (s.renderHistory r vp scroll) row := by
  rw [findTurnAtRow, SessionDisplayState.renderHistory]
  by_cases hheight : vp.height = 0
  · rw [if_pos (by omega), if_pos (.inr hheight)]
    rfl
  · have hscroll : s.effectiveScroll vp scroll ≤ s.totalHistoryHeight - vp.height :=
      min_le_right _ _
    have hstart : Shows vp.height (s.totalHistoryHeight - s.effectiveScroll vp scroll) s.turnAtLine
        (s.turnHeights.take s.turnHeights.length).sum
        (⟨s.effectiveScroll vp scroll, vp.height, vp.height⟩, []) := by
      rw [take_length, ← totalHistoryHeight_eq h.sums]
      refine ⟨?_, fun row => ?_⟩
      · rw [DrawCursor.at, DrawCursor.mk.injEq]
        omega
      · rw [if_neg (by omega)]
        rfl
    have hrows := (h.renderTurns (Nat.pos_of_ne_zero hheight) le_rfl hstart).rows row
    rw [if_neg (by omega : ¬(vp.width = 0 ∨ vp.height = 0)), ← h.length, hrows]
    by_cases hoff : vp.height ≤ row
    · rw [if_pos hoff, if_neg (by omega)]
    · rw [if_neg hoff]
      dsimp only
      by_cases hblank : row + s.totalHistoryHeight < s.effectiveScroll vp scroll + vp.height
      · rw [if_pos hblank, if_neg (by omega)]
      · have hline : row + s.totalHistoryHeight - (s.effectiveScroll vp scroll + vp.height) =
            row + (s.totalHistoryHeight - s.effectiveScroll vp scroll) - vp.height := by omega
        rw [if_neg hblank, if_neg (by omega), if_pos (turnAtLine_lt (by omega)), if_pos (by omega),
          hline]

/-! ### Layout passes -/

theorem drawnLines_eq {i : ℕ} {p : ℕ × Turn}
    (hdefault : ((s.turnLayouts[i]?).map (·.reasoningDefaultExpanded)).getD
      (reasoningExpandedDefault p.2) = reasoningExpandedDefault p.2)
    (hslot : s.renderCache.getD i none = none ∨
      s.renderCache.getD i none = some (s.entryOf r vp p)) :
    s.drawnLines r vp i p = s.freshLines r vp p.1 p.2 := by
  rw [drawnLines]
  simp only [hdefault]
  rcases hslot with hslot | hslot <;> rw [hslot]
  · rfl
  · exact congrArg RenderedCache.rendered (if_pos rfl)

theorem LaidOut.fits (h : LaidOut r vp s) : s.Fits r vp := by
  refine ⟨h.visible, by rw [h.heights, h.visible, List.length_map, List.length_map], h.sums,
    fun i p hp => ?_⟩
  rw [drawnLines_eq (r := r) ?_ (.inr ?_), h.heights, List.getElem?_map, hp]
  · rfl
  · rw [h.layouts, List.getElem?_map, hp]
    rfl
  · rw [h.cache, getD_eq_getElem?_getD, List.getElem?_map, hp]
    rfl

variable {idx id : ℕ} {turn : Turn} {t : SessionDisplayState Line}

def RowsElsewhere (r : Renderer Line) (vp : HistoryViewport) (s : SessionDisplayState Line)
    (idx : ℕ) : Prop :=
  ∀ i p, i ≠ idx → (live s.view.turns)[i]? = some p →
    s.turnHeights[i]? = some (heightOf vp p.2 (s.drawnLines r vp i p))

/-- The streaming turn was laid out, and the others are drawn as they were. -/
theorem fits_streamed (hids : s.visibleTurnIds = (live s.view.turns).map Prod.fst)
    (hlength : s.turnHeights.length = s.visibleTurnIds.length)
    (hvisible : s.visibleTurnIds[idx]? = some id) (hget : s.view.turns[id]? = some turn)
    (hothers : s.RowsElsewhere r vp idx)
    (hstreamed : Streamed r vp s idx id turn t) : t.Fits r vp := by
  have ht := hstreamed.1
  have hheights : t.turnHeights = s.turnHeights.set idx (s.rowsOf r vp (id, turn)) := by rw [ht]
  have hcache : t.renderCache = s.renderCache.set idx (some (s.entryOf r vp (id, turn))) := by
    rw [ht]; rfl
  have hlayouts : t.turnLayouts = s.turnLayouts.modify idx fun old =>
      { layoutOf vp turn (s.freshLines r vp id turn) with imageRanges := old.imageRanges } := by
    rw [ht]; rfl
  have hview : t.view = s.view := by rw [ht]; rfl
  have hvisible' : t.visibleTurnIds = s.visibleTurnIds := by rw [ht]; rfl
  have hsums : t.heightPrefix = prefixSums 0 t.turnHeights := by rw [ht]
  have hkey (id : ℕ) (turn : Turn) : t.cacheKey vp id turn = s.cacheKey vp id turn := by
    rw [ht]; rfl
  have hshown (id : ℕ) (default : Bool) : t.effectiveReasoningExpanded id default =
      s.effectiveReasoningExpanded id default := by rw [ht]; rfl
  refine ⟨by rw [hvisible', hids, hview], by rw [hheights, length_set, hlength, hvisible'],
    hsums, fun i p hp => ?_⟩
  rw [hview] at hp
  have hlt : idx < s.turnHeights.length := by
    rw [hlength]
    exact (List.getElem?_eq_some_iff.1 hvisible).1
  by_cases hi : i = idx
  · subst hi
    rw [hids] at hvisible
    obtain rfl := some.inj (hp.symm.trans (getElem?_live hvisible hget))
    rw [hheights, List.getElem?_set_self hlt]
    have hfresh : t.freshLines r vp id turn = s.freshLines r vp id turn := by rw [ht]; rfl
    have hentry : t.entryOf r vp (id, turn) = s.entryOf r vp (id, turn) := by rw [ht]; rfl
    rw [drawnLines_eq (r := r) ?_ ?_, hfresh]
    · rfl
    · rw [hlayouts, List.getElem?_modify_eq]
      rcases s.turnLayouts[i]? <;> rfl
    · rw [hentry, hcache, getD_eq_getElem?_getD, List.getElem?_set]
      split_ifs with hself hin
      · exact .inr rfl
      · exact .inl rfl
      · exact absurd rfl hself
  · have hslot : t.renderCache.getD i none = s.renderCache.getD i none := by
      rw [hcache, getD_eq_getElem?_getD, List.getElem?_set_ne (Ne.symm hi),
        getD_eq_getElem?_getD]
    rw [hheights, List.getElem?_set_ne (Ne.symm hi), hothers i p hi hp, drawnLines, drawnLines,
      hslot, hlayouts, List.getElem?_modify_ne _ _ (Ne.symm hi), hkey, hshown]

/-- The condition on a step: a pass that lays out the streaming turn alone finds all others drawn
with the rows they have; the count of the changes of a turn does not wrap around. -/
def RowsKept (r : Renderer Line) (vp : HistoryViewport) (ev : DisplayEvent)
    (s : SessionDisplayState Line) : Prop :=
  match ev with
  | .layout => s.streamingDirty = true → s.markersDirty = false →
    ∀ idx id turn, s.streamingTurnIndex = some idx → s.visibleTurnIds[idx]? = some id →
      s.view.turns[id]? = some turn → s.turnHeights.getD idx 0 ≤ s.rowsOf r vp (id, turn) →
        s.RowsElsewhere r vp idx
  | ev => Sound r vp ev s

/-- What holds between two passes: the turns that are laid out are those that are not undone, and
they are drawn as they were laid out unless chunks arrived. -/
structure Kept (r : Renderer Line) (vp : HistoryViewport) (s : SessionDisplayState Line) :
    Prop where
  cacheOk : s.CacheOk r vp
  visible : s.markersDirty = false → s.visibleTurnIds = (live s.view.turns).map Prod.fst
  length : s.markersDirty = false → s.turnHeights.length = s.visibleTurnIds.length
  sums : s.markersDirty = false → s.heightPrefix = prefixSums 0 s.turnHeights
  fits : s.markersDirty = false → s.streamingDirty = false → s.Fits r vp

theorem Fits.kept (h : s.Fits r vp) (hok : s.CacheOk r vp) : s.Kept r vp :=
  ⟨hok, fun _ => h.visible, fun _ => h.length, fun _ => h.sums, fun _ _ => h⟩

theorem CacheOk.kept (h : s.CacheOk r vp) (hdirty : s.markersDirty = true) : s.Kept r vp := by
  refine ⟨h, ?_, ?_, ?_, ?_⟩ <;> intro hclean <;> cases hdirty.symm.trans hclean

/-- Everything fits, or is laid out again by the rebuild that follows. -/
def Ready (r : Renderer Line) (vp : HistoryViewport) (s : SessionDisplayState Line) : Prop :=
  s.CacheOk r vp ∧ (s.markersDirty = true ∨ s.Fits r vp)

theorem LaidOut.ready (h : LaidOut r vp s) : s.Ready r vp := ⟨h.inv.cacheOk, .inr h.fits⟩

/-- After a layout pass every turn is drawn as it was laid out. -/
theorem Kept.layout (h : s.Kept r vp) (hkept : RowsKept r vp .layout s) :
    (s.computeTotalHeightAndMarkers r vp).CacheOk r vp ∧
      (s.computeTotalHeightAndMarkers r vp).Fits r vp := by
  have hfinish (t : SessionDisplayState Line) (ht : t.Ready r vp) :
      CacheOk r vp (if t.markersDirty then t.rebuildHeightPrefixPreservingScroll r vp else t) ∧
        Fits r vp (if t.markersDirty then t.rebuildHeightPrefixPreservingScroll r vp else t) := by
    split_ifs with hdirty
    · exact ⟨ht.1.laidOut_preservingScroll.inv.cacheOk, ht.1.laidOut_preservingScroll.fits⟩
    · exact ⟨ht.1, ht.2.resolve_left hdirty⟩
  refine hfinish _ ?_
  rcases hdirty : s.markersDirty with _ | _ <;> split_ifs with hstreaming
  · refine applyStreamingUpdate_cases (P := fun t => t.Ready r vp)
      h.cacheOk.laidOut_preservingScroll.ready fun idx id turn hindex hvisible hget => ?_
    rcases h.cacheOk.streamInto hvisible hget with hlaid | ⟨hok, -, hge, hstreamed⟩
    · exact hlaid.ready
    · exact ⟨hok, .inr (fits_streamed (h.visible hdirty) (h.length hdirty) hvisible hget
        (hkept hstreaming hdirty idx id turn hindex hvisible hget hge)
        (hstreamed (h.length hdirty) (h.sums hdirty)))⟩
  · exact ⟨h.cacheOk, .inr (h.fits hdirty (Bool.eq_false_iff.2 hstreaming))⟩
  · refine applyStreamingUpdate_cases (P := fun t => t.Ready r vp)
      h.cacheOk.laidOut_preservingScroll.ready fun idx id turn _ hvisible hget => ?_
    rcases h.cacheOk.streamInto hvisible hget with hlaid | ⟨hok, hsame, -⟩
    · exact hlaid.ready
    · exact ⟨hok, .inl (hsame.trans hdirty)⟩
  · exact ⟨h.cacheOk, .inl hdirty⟩

/-! ### Runs -/

theorem Kept.touched (h : s.Kept r vp) (ht : Touched vp s t)
    (hdirty : t.markersDirty = s.markersDirty) (hstreaming : t.streamingDirty = true) :
    t.Kept r vp := by
  refine ⟨ht.cacheOk h.cacheOk, fun hclean => ?_, fun hclean => ?_, fun hclean => ?_,
    fun _ hidle => absurd (hstreaming.symm.trans hidle) Bool.noConfusion⟩ <;> rw [hdirty] at hclean
  · rw [ht.visible, h.visible hclean, ht.live]
  · rw [ht.heights, ht.visible, h.length hclean]
  · rw [ht.sums, ht.heights, h.sums hclean]

/-- Every event keeps what holds between two passes. -/
theorem Kept.handle (h : s.Kept r vp) {ev : DisplayEvent} (hkept : RowsKept r vp ev s) :
    (s.handle r vp ev).Kept r vp := by
  have hdirty {t : SessionDisplayState Line} (ht : t.CacheOk r vp) :
      t.markContentChanged.Kept r vp := ht.markContentChanged.cacheOk.kept rfl
  rcases ev with ⟨id, turn⟩ | ids | turns | ⟨requestId, turnId⟩ | ⟨requestId, stream, data⟩ |
    ⟨requestId, callId, name, args, description⟩ | ⟨requestId, callId, data⟩ | turns | requestId |
    requestId | id | ⟨id, callId⟩ | _ | _
  · exact hdirty (h.cacheOk.replaceTurn id turn)
  · exact hdirty (h.cacheOk.foldl (fun _ id hs => hs.undoTurn id) ids)
  · exact hdirty (h.cacheOk.foldl (fun _ p hs => hs.replaceTurn p.1 p.2) turns)
  · obtain ⟨⟨hnodup, hknown, hslot, hversion, hfresh⟩, hvisible, hlength, hsums, hfits⟩ := h
    refine ⟨⟨hnodup, hknown, hslot, hversion, hfresh⟩, hvisible, hlength, hsums,
      fun hclean hidle => ?_⟩
    obtain ⟨hvisible, hlength, hsums, hrows⟩ := hfits hclean hidle
    exact ⟨hvisible, hlength, hsums, hrows⟩
  · obtain ⟨shown, hcollapsed, hshown⟩ := s.collapseReasoning_eq requestId stream
    simp only [SessionDisplayState.handle, hcollapsed]
    exact h.touched (touched_chunk (fun view => view.chunked_streamChunk requestId stream data)
      hshown hkept) (markersDirty_chunk _ requestId _) rfl
  · exact h.touched (touched_chunk
      (fun view => view.chunked_toolCallStarted requestId callId name args description)
      (fun _ _ => rfl) hkept) (markersDirty_chunk s requestId _) rfl
  · exact h.touched (touched_chunk
      (fun view => view.chunked_toolResultChunk requestId callId data) (fun _ _ => rfl) hkept)
      (markersDirty_chunk s requestId _) rfl
  · exact hdirty (h.cacheOk.handleSessionState hkept)
  · exact hdirty (h.cacheOk.endRequest requestId)
  · exact hdirty (h.cacheOk.endRequest requestId)
  · rcases h.cacheOk.toggleReasoning id with hsame | ⟨hok, hmarked⟩
    · rw [SessionDisplayState.handle, hsame]
      exact h
    · exact hok.kept hmarked
  · rcases h.cacheOk.toggleToolResult id callId with hsame | ⟨hok, hmarked⟩
    · rw [SessionDisplayState.handle, hsame]
      exact h
    · exact hok.kept hmarked
  · exact (cacheOk_of_nil rfl rfl).kept rfl
  · exact (h.layout hkept).2.kept (h.layout hkept).1

/-- In a run whose steps keep the rows of the turns, every layout pass leaves a history in which a
click finds the turn that is drawn. -/
theorem findTurnAtRow_eq_drawnAt (r : Renderer Line) (vp : HistoryViewport) (hwidth : 0 < vp.width)
    {evs : List DisplayEvent} {s : SessionDisplayState Line}
    (hkept : StepSystem.Along (step r vp) (RowsKept r vp) (evs ++ [.layout]) {})
    (hrun : StepSystem.run (step r vp) (evs ++ [.layout]) {} = some s)
    (scroll : HistoryScrollState) (row : ℕ) :
    s.findTurnAtRow vp scroll row = drawnAt (s.renderHistory r vp scroll) row := by
  obtain ⟨before, hbefore, hlast⟩ := StepSystem.run_concat_eq_some.1 hrun
  obtain ⟨halong, hlayout, -⟩ := (StepSystem.along_append hbefore).1 hkept
  have hinv : before.Kept r vp := by
    refine StepSystem.invariant_of_along (I := fun s => s.Kept r vp)
      (fun ev s s' hev hs hstep => ?_) ((cacheOk_of_nil rfl rfl).kept rfl) halong hbefore
    cases hstep
    exact hs.handle hev
  cases hlast
  exact (hinv.layout hlayout).2.findTurnAtRow_eq hwidth scroll row

namespace Sample

def rows : Renderer String :=
  { lines with
    renderTurnLines := fun turn _ _ _ _ =>
      { lines := turn.userText.getD "" :: turn.toolResults.map (·.content)
        reasoningHeaderIdx := none
        toolResultHeaderIdxs := [] } }

/-- The state after some events. -/
def counted (evs : List DisplayEvent) : SessionDisplayState String :=
  evs.foldl (fun s ev => s.handle rows screen ev) {}

theorem findTurnAtRow_chunks :
    (counted (chunks ++ [.layout])).findTurnAtRow screen ⟨0, 0⟩ 22 =
      drawnAt ((counted (chunks ++ [.layout])).renderHistory rows screen ⟨0, 0⟩) 22 := by
  have hkept : StepSystem.Along (step rows screen) (RowsKept rows screen) (chunks ++ [.layout])
      {} := by
    refine ⟨trivial, fun hstreaming => ?_, trivial, fun id hroute => ?_,
      fun _ _ idx id turn hindex _ _ _ i p hi hp => ?_, trivial⟩
    · exact absurd hstreaming (by decide)
    · have hone : (counted (chunks.take 3)).view.requestToTurn[7]? = some 1 := by decide
      obtain rfl := some.inj (hone.symm.trans hroute)
      have hversion : (counted (chunks.take 3)).turnContentVersion 1 = 1 := by decide
      change (counted (chunks.take 3)).turnContentVersion 1 + 1 < 2 ^ 64
      rw [hversion]
      norm_num
    · have hzero : (counted chunks).streamingTurnIndex = some 0 := by decide
      obtain rfl := some.inj (hzero.symm.trans hindex)
      have hlength : (live (counted chunks).view.turns).length = 1 := by decide
      have hlt := (List.getElem?_eq_some_iff.1 hp).1
      change i < (live (counted chunks).view.turns).length at hlt
      omega
  exact findTurnAtRow_eq_drawnAt rows screen (by decide) hkept rfl ⟨0, 0⟩ 22

/-- A snapshot brings an earlier turn while a turn streams, and the results of two tool calls
follow. -/
def lateTurn : List DisplayEvent :=
  [.sessionState ((∅ : TurnMap).insert 1 Sample.turn), .layout, .started 7 1,
    .sessionState ((∅ : TurnMap).insert 0 Sample.turn), .toolCallStarted 7 "a" "bash" "" "",
    .toolResultChunk 7 "a" "ok", .layout, .toolCallStarted 7 "b" "bash" "" "",
    .toolResultChunk 7 "b" "ok", .layout]

/-- The second result makes a row that is drawn, but not counted: no click finds the first row. -/
theorem not_found_lateTurn :
    StepSystem.run (step rows screen) lateTurn {} = some (counted lateTurn) ∧
      (counted lateTurn).findTurnAtRow screen ⟨0, 0⟩ 20 = none ∧
      drawnAt ((counted lateTurn).renderHistory rows screen ⟨0, 0⟩) 20 = some (0, 0) :=
  ⟨rfl, by decide, by decide⟩

end Sample

end SessionDisplayState

end Choreo
