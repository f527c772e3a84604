import Choreo.Client.SessionView
import Choreo.Text

/-!
# The layout of a session's history

The terminal client keeps the rendered lines of every turn, the heights, the positions of the
prompts and the click ranges of the headers (`SessionDisplayState` of
`choreo-tui/src/state/mod.rs`). A layout pass renders everything again, turns whose cached lines
have the current key excepted, or, when only chunks arrived, just the turn that is streaming.

## Main definitions

* `SessionDisplayState`: the view with what was laid out of it.
* `SessionDisplayState.rebuildHeightPrefix`,
  `SessionDisplayState.applyStreamingUpdate`: the two ways to lay out.
* `SessionDisplayState.computeTotalHeightAndMarkers`: a layout pass.
* `DisplayEvent`, `SessionDisplayState.handle`: what changes the view.
-/

namespace Choreo

/-! ### Rendered turns -/

/-- The size of the history on screen. -/
structure HistoryViewport where
  width : ℕ
  height : ℕ

/-- The lines of a turn, and which of them are the headers of the reasoning and the tool results. -/
structure RenderedTurnLines (Line : Type*) where
  lines : List Line
  reasoningHeaderIdx : Option ℕ
  toolResultHeaderIdxs : List ℕ

/-- How turns are rendered: the lines of a turn for the two widths, with the reasoning shown or not
and each tool result collapsed or not; the rows of some lines; the rows up to each line. -/
structure Renderer (Line : Type*) where
  renderTurnLines : Turn → ℕ → ℕ → Bool → List Bool → RenderedTurnLines Line
  linesHeight : List Line → ℕ → ℕ
  computeVisualOffsets : List Line → ℕ → List ℕ

/-- What the cached lines of a turn were rendered from. -/
structure RenderCacheKey where
  turnId : ℕ
  width : ℕ
  viewportWidth : ℕ
  reasoningExpanded : Bool
  toolResultsCollapsed : List Bool
  contentVersion : ℕ
deriving DecidableEq

structure RenderedTurn (Line : Type*) where
  lines : List Line
  height : ℕ
  visualOffsets : List ℕ
  reasoningHeaderIdx : Option ℕ
  toolResultHeaderIdxs : List ℕ

/-- A slot of the cache. -/
structure RenderedCache (Line : Type*) where
  key : RenderCacheKey
  rendered : RenderedTurn Line

/-- The click ranges of a turn. -/
structure TurnLayout where
  reasoningHeaderRange : Option (ℕ × ℕ)
  reasoningDefaultExpanded : Bool
  imageRanges : List (ℕ × ℕ)
  toolResultHeaderRanges : List (ℕ × ℕ)
deriving DecidableEq

/-- The position of a prompt in the history, and on the scroll bar. -/
structure Marker where
  contentLine : ℕ
  virtualSlot : ℕ
deriving DecidableEq

/-- Whether a text has more than white space. -/
def hasText (text : Option String) : Bool :=
  match text with
  | none => false
  | some text => trim text ≠ ""

/-- The reasoning is shown until there is an answer. -/
def reasoningExpandedDefault (turn : Turn) : Bool :=
  hasText turn.assistantReasoning && !hasText turn.assistantText

/-- The tools whose results are only for the model. -/
def quietTools : List String := ["read_file", "read_file_range", "http_request"]

def toolResultDefaultCollapsed (result : ToolResultRecord) : Bool :=
  !result.isError && quietTools.contains result.name

def headerRange (offsets : List ℕ) (idx : ℕ) : ℕ × ℕ :=
  (if idx = 0 then 0 else offsets.getD (idx - 1) 0, offsets.getD idx 0)

/-- The rows of the images below a text. -/
def imageRanges (textHeight imageHeight count : ℕ) : List (ℕ × ℕ) :=
  (List.range count).map fun k =>
    (textHeight + k * imageHeight, textHeight + k * imageHeight + imageHeight)

/-- The running totals of some heights. -/
def prefixSums : ℕ → List ℕ → List ℕ
  | _, [] => []
  | total, h :: hs => (total + h) :: prefixSums (total + h) hs

/-- The rows at which the turns with a prompt begin. -/
def startLines : ℕ → List (Bool × ℕ) → List ℕ
  | _, [] => []
  | total, (hasPrompt, h) :: rest =>
    if hasPrompt then total :: startLines (total + h) rest else startLines (total + h) rest

namespace HistoryViewport

variable (vp : HistoryViewport)

def imageBlockHeight : ℕ := max (vp.height / 2) 1

/-- The positions on the scroll bar. -/
def virtualTrackSlots : ℕ := 2 * vp.height

/-- The markers of the prompts in a history of some height. -/
def markersAt (total : ℕ) (starts : List ℕ) : List Marker :=
  starts.map fun start =>
    { contentLine := start, virtualSlot := start * vp.virtualTrackSlots / max total 1 }

end HistoryViewport

def Renderer.rendered {Line : Type*} (r : Renderer Line) (vp : HistoryViewport) (turn : Turn)
    (expanded : Bool) (collapsed : List Bool) : RenderedTurn Line :=
  let out := r.renderTurnLines turn (vp.width - 9) (vp.width - 1) expanded collapsed
  { lines := out.lines
    height := max (r.linesHeight out.lines vp.width) 1
    visualOffsets := r.computeVisualOffsets out.lines vp.width
    reasoningHeaderIdx := out.reasoningHeaderIdx
    toolResultHeaderIdxs := out.toolResultHeaderIdxs }

/-! ### The state -/

/-- What the client keeps of a session to show its history. -/
structure SessionDisplayState (Line : Type*) where
  view : SessionView := {}
  turnVersions : Std.ExtTreeMap ℕ ℕ := ∅
  reasoningOverride : Std.ExtTreeMap ℕ Bool := ∅
  toolCollapseOverride : Std.ExtTreeMap ℕ (Std.ExtTreeMap String Bool) := ∅
  renderCache : List (Option (RenderedCache Line)) := []
  visibleTurnIds : List ℕ := []
  turnHeights : List ℕ := []
  heightPrefix : List ℕ := []
  markers : List Marker := []
  turnLayouts : List TurnLayout := []
  streamingTurnIndex : Option ℕ := none
  streamingDirty : Bool := false
  markersDirty : Bool := true

namespace SessionDisplayState

variable {Line : Type*} (r : Renderer Line) (vp : HistoryViewport) (s : SessionDisplayState Line)

/-- How often the content of a turn changed, as a 64-bit counter. -/
def turnContentVersion (id : ℕ) : ℕ := (s.turnVersions[id]?).getD 0

/-- Counts a change of a turn. -/
def bumpTurnVersion (id : ℕ) : SessionDisplayState Line :=
  { s with turnVersions := s.turnVersions.insert id ((s.turnContentVersion id + 1) % 2 ^ 64) }

/-- Whether the reasoning of a turn is shown. -/
def effectiveReasoningExpanded (id : ℕ) (default : Bool) : Bool :=
  (s.reasoningOverride[id]?).getD default

def effectiveToolResultCollapsed (id : ℕ)
    (result : ToolResultRecord) : Bool :=
  ((s.toolCollapseOverride[id]?).bind fun byCall => byCall[result.callId]?).getD
    (toolResultDefaultCollapsed result)

def cacheKey (id : ℕ) (turn : Turn) : RenderCacheKey where
  turnId := id
  width := vp.width - 9
  viewportWidth := vp.width
  reasoningExpanded := s.effectiveReasoningExpanded id (reasoningExpandedDefault turn)
  toolResultsCollapsed := turn.toolResults.map (s.effectiveToolResultCollapsed id)
  contentVersion := s.turnContentVersion id

/-- A turn rendered as its key says. -/
def freshLines (id : ℕ) (turn : Turn) : RenderedTurn Line :=
  r.rendered vp turn (s.cacheKey vp id turn).reasoningExpanded
    (s.cacheKey vp id turn).toolResultsCollapsed

/-- The click ranges of a rendered turn. -/
def layoutOf (turn : Turn) (rendered : RenderedTurn Line) : TurnLayout where
  reasoningHeaderRange := rendered.reasoningHeaderIdx.map (headerRange rendered.visualOffsets)
  reasoningDefaultExpanded := reasoningExpandedDefault turn
  imageRanges := imageRanges rendered.height vp.imageBlockHeight turn.displayedImages.length
  toolResultHeaderRanges :=
    rendered.toolResultHeaderIdxs.map (headerRange rendered.visualOffsets)

def heightOf (turn : Turn) (rendered : RenderedTurn Line) : ℕ :=
  rendered.height + turn.displayedImages.length * vp.imageBlockHeight

/-! ### Laying out everything -/

def cachedOrComputeLines (slot : Option (RenderedCache Line)) (key : RenderCacheKey)
    (compute : RenderedTurn Line) : RenderedCache Line :=
  match slot with
  | none => { key := key, rendered := compute }
  | some cached => if cached.key = key then cached else { key := key, rendered := compute }

/-- What the loop over the turns leaves behind. -/
structure Rebuilt (Line : Type*) where
  cache : List (Option (RenderedCache Line)) := []
  visible : List ℕ := []
  heights : List ℕ := []
  sums : List ℕ := []
  starts : List ℕ := []
  layouts : List TurnLayout := []

/-- The loop over the turns, with the number and the height of the visible turns passed. -/
def rebuildLoop (s : SessionDisplayState Line) : ℕ → ℕ → List (ℕ × Turn) → Rebuilt Line
  | _, _, [] => {}
  | idx, total, (id, turn) :: rest =>
    if turn.undone then rebuildLoop s idx total rest
    else
      let entry := cachedOrComputeLines (s.renderCache.getD idx none) (s.cacheKey vp id turn)
        (s.freshLines r vp id turn)
      let height := heightOf vp turn entry.rendered
      let rebuilt := rebuildLoop s (idx + 1) (total + height) rest
      { cache := some entry :: rebuilt.cache
        visible := id :: rebuilt.visible
        heights := height :: rebuilt.heights
        sums := (total + height) :: rebuilt.sums
        starts := if turn.userText.isSome then total :: rebuilt.starts else rebuilt.starts
        layouts := layoutOf vp turn entry.rendered :: rebuilt.layouts }

/-- Lays out everything. -/
def rebuildHeightPrefix : SessionDisplayState Line :=
  let rebuilt := s.rebuildLoop r vp 0 0 s.view.turns.toList
  { s with
    renderCache := rebuilt.cache
    visibleTurnIds := rebuilt.visible
    turnHeights := rebuilt.heights
    heightPrefix := rebuilt.sums
    markers := vp.markersAt (rebuilt.sums.getLast?.getD 0) rebuilt.starts
    turnLayouts := rebuilt.layouts
    markersDirty := false }

/-- Lays out everything, the chunks included. -/
def rebuildHeightPrefixPreservingScroll :
    SessionDisplayState Line :=
  { s.rebuildHeightPrefix r vp with streamingDirty := false }

/-! ### Laying out the streaming turn -/

def hasPrompt (id : ℕ) : Bool :=
  match s.view.turns[id]? with
  | none => false
  | some turn => turn.userText.isSome

def laidOutMarkers : List Marker :=
  vp.markersAt (s.heightPrefix.getLast?.getD 0)
    (startLines 0 ((s.visibleTurnIds.zip s.turnHeights).map fun p => (s.hasPrompt p.1, p.2)))

/-- The slot of the streaming turn and its click ranges, but for those of its images. -/
def putStreaming (idx id : ℕ) (turn : Turn) :
    SessionDisplayState Line :=
  let rendered := s.freshLines r vp id turn
  { s with
    turnLayouts := s.turnLayouts.modify idx fun old =>
      { layoutOf vp turn rendered with imageRanges := old.imageRanges }
    renderCache := s.renderCache.set idx (some ⟨s.cacheKey vp id turn, rendered⟩) }

/-- The streaming turn has grown: its height, the totals from it on, and the markers. -/
def growTo (idx oldHeight turnHeight : ℕ) :
    SessionDisplayState Line :=
  let s :=
    { s with
      turnHeights := s.turnHeights.set idx turnHeight
      heightPrefix := s.heightPrefix.mapIdx fun i sum =>
        if idx ≤ i then sum + (turnHeight - oldHeight) else sum }
  { s with markers := s.laidOutMarkers vp }

/-- Lays out the streaming turn, and everything when it has shrunk. -/
def streamInto (idx id : ℕ) (turn : Turn) :
    SessionDisplayState Line :=
  let turnHeight := heightOf vp turn (s.freshLines r vp id turn)
  let oldHeight := s.turnHeights.getD idx 0
  let s := s.putStreaming r vp idx id turn
  if oldHeight < turnHeight then
    { s.growTo vp idx oldHeight turnHeight with streamingDirty := false }
  else if turnHeight < oldHeight then s.rebuildHeightPrefixPreservingScroll r vp
  else { s with streamingDirty := false }

/-- Lays out the streaming turn only, if it is known which and its lines are cached. -/
def applyStreamingUpdate : SessionDisplayState Line :=
  match s.streamingTurnIndex with
  | none => s.rebuildHeightPrefixPreservingScroll r vp
  | some idx =>
    match s.visibleTurnIds[idx]? with
    | none => s.rebuildHeightPrefixPreservingScroll r vp
    | some id =>
      match s.view.turns[id]? with
      | none => s.rebuildHeightPrefixPreservingScroll r vp
      | some turn =>
        match s.renderCache.getD idx none with
        | none => s.rebuildHeightPrefixPreservingScroll r vp
        | some cached =>
          if cached.key.turnId = id ∧ cached.key.width = vp.width - 9 ∧
              cached.key.viewportWidth = vp.width then
            s.streamInto r vp idx id turn
          else s.rebuildHeightPrefixPreservingScroll r vp

/-- A layout pass. -/
def computeTotalHeightAndMarkers : SessionDisplayState Line :=
  let s := if s.streamingDirty then s.applyStreamingUpdate r vp else s
  if s.markersDirty then s.rebuildHeightPrefixPreservingScroll r vp else s

/-! ### What changes the view -/

/-- Only chunks arrived. -/
def markStreamingChanged : SessionDisplayState Line :=
  { s with streamingDirty := true }

/-- Everything is to be laid out again. -/
def markContentChanged : SessionDisplayState Line :=
  { s with markersDirty := true, streamingTurnIndex := none, streamingDirty := false }

/-- Where a turn is laid out. -/
def positionOf (id : ℕ) : Option ℕ :=
  s.visibleTurnIds.findIdx? (· == id)

/-- Remembers where the turn of a request is laid out, if nothing is remembered. -/
def resolveStreamingTurnIndex (requestId : ℕ) :
    SessionDisplayState Line :=
  match s.streamingTurnIndex, s.view.requestToTurn[requestId]? with
  | none, some id => { s with streamingTurnIndex := s.positionOf id }
  | _, _ => s

/-- Empties the slot of a turn. -/
def invalidateTurnCache (id : ℕ) : SessionDisplayState Line :=
  match s.positionOf id with
  | none => s
  | some idx => { s with renderCache := s.renderCache.set idx none }

def modifyView (f : SessionView → SessionView) (s : SessionDisplayState Line) :
    SessionDisplayState Line :=
  { s with view := f s.view }

/-- A whole turn arrived. -/
def replaceTurn (id : ℕ) (turn : Turn) : SessionDisplayState Line :=
  ((s.invalidateTurnCache id).bumpTurnVersion id).modifyView (·.insertOrReplace id turn)

/-- A turn was undone. -/
def undoTurn (id : ℕ) : SessionDisplayState Line :=
  let s := s.invalidateTurnCache id
  { s with
    turnVersions := s.turnVersions.erase id
    reasoningOverride := s.reasoningOverride.erase id
    toolCollapseOverride := s.toolCollapseOverride.erase id
    view := { s.view with turns := s.view.turns.modify id (Turn.setUndone true) } }

def chunk (requestId : ℕ) (f : SessionView → SessionView) :
    SessionDisplayState Line :=
  let turnId := s.view.requestToTurn[requestId]?
  let s := s.modifyView f
  let s :=
    match turnId with
    | none => s
    | some id => s.bumpTurnVersion id
  (s.resolveStreamingTurnIndex requestId).markStreamingChanged

/-- The first chunk of an answer takes the choice to show the reasoning back. -/
def collapseReasoning (requestId : ℕ) (stream : OutputStream) :
    SessionDisplayState Line :=
  match s.view.requestToTurn[requestId]? with
  | none => s
  | some id =>
    if stream = .answer ∧ ((s.view.turns[id]?).map (·.assistantText)) = some none then
      { s with reasoningOverride := s.reasoningOverride.erase id }
    else s

/-- Whether the locally streamed version of a turn has content that a snapshot lacks. -/
def turnHasLiveContent (accumulated snapshot : Turn) : Bool :=
  let filled : Option String → Bool := fun text => text.getD "" ≠ ""
  (filled accumulated.assistantText && !filled snapshot.assistantText) ||
    (filled accumulated.assistantReasoning && !filled snapshot.assistantReasoning) ||
    (!accumulated.toolCalls.isEmpty && snapshot.toolCalls.isEmpty) ||
    (!accumulated.toolResults.isEmpty && snapshot.toolResults.isEmpty) ||
    (!accumulated.displayedImages.isEmpty && snapshot.displayedImages.isEmpty)

/-- The turns of a snapshot, but those known before where they have more content or where the
snapshot has none. -/
def mergeSnapshot (accumulated snapshot : TurnMap) : TurnMap :=
  accumulated.toList.foldl
    (fun merged p =>
      match snapshot[p.1]? with
      | none => merged.insert p.1 p.2
      | some turn => if turnHasLiveContent p.2 turn then merged.insert p.1 p.2 else merged)
    snapshot

/-- A snapshot arrived. -/
def handleSessionState (snapshot : TurnMap) :
    SessionDisplayState Line :=
  let known := s.view.turns.keys
  let merged := mergeSnapshot s.view.turns snapshot
  let s := s.modifyView fun view => { view with turns := merged }
  let s := { s with turnVersions := s.turnVersions.filter fun id _ => merged.contains id }
  known.foldl bumpTurnVersion s

/-- Shows the reasoning of a turn or hides it. -/
def toggleReasoning (id : ℕ) : SessionDisplayState Line :=
  match s.view.turns[id]? with
  | none => s
  | some turn =>
    let current := s.effectiveReasoningExpanded id (reasoningExpandedDefault turn)
    (({ s with reasoningOverride := s.reasoningOverride.insert id !current }).invalidateTurnCache
      id).markContentChanged

def toggleToolResult (id : ℕ) (callId : String) :
    SessionDisplayState Line :=
  match (s.view.turns[id]?).bind fun turn => turn.toolResults.find? (·.callId == callId) with
  | none => s
  | some result =>
    let byCall := (s.toolCollapseOverride[id]?).getD ∅
    let current := s.effectiveToolResultCollapsed id result
    (({ s with
        toolCollapseOverride :=
          s.toolCollapseOverride.insert id (byCall.insert callId !current) }).invalidateTurnCache
      id).markContentChanged

/-- The session is put on screen. -/
def resetForSessionSwitch : SessionDisplayState Line :=
  { s with
    renderCache := [], visibleTurnIds := [], markers := [], heightPrefix := [], turnHeights := []
    turnLayouts := [], streamingTurnIndex := none, streamingDirty := false, markersDirty := true }

end SessionDisplayState

/-! ### Runs -/

/-- What happens to the history of a session: the events of its turns, a click on a header, a switch
to the session, and a layout pass. -/
inductive DisplayEvent
  | turnAppended (id : ℕ) (turn : Turn)
  | turnsUndone (ids : List ℕ)
  | turnsRedone (turns : List (ℕ × Turn))
  | started (requestId turnId : ℕ)
  | requestStream (requestId : ℕ) (stream : OutputStream) (data : String)
  | toolCallStarted (requestId : ℕ) (callId name args description : String)
  | toolResultChunk (requestId : ℕ) (callId data : String)
  | sessionState (turns : TurnMap)
  | done (requestId : ℕ)
  | failed (requestId : ℕ)
  | toggleReasoning (id : ℕ)
  | toggleToolResult (id : ℕ) (callId : String)
  | switchTo
  | layout

namespace SessionDisplayState

variable {Line : Type*} (r : Renderer Line) (vp : HistoryViewport)

/-- The client handles an event. -/
def handle (ev : DisplayEvent) (s : SessionDisplayState Line) : SessionDisplayState Line :=
  match ev with
  | .turnAppended id turn => (s.replaceTurn id turn).markContentChanged
  | .turnsUndone ids => (ids.foldl undoTurn s).markContentChanged
  | .turnsRedone turns => (turns.foldl (fun s p => s.replaceTurn p.1 p.2) s).markContentChanged
  | .started requestId turnId =>
    let s := s.modifyView fun view =>
      { view with requestToTurn := view.requestToTurn.insert requestId turnId }
    { s with streamingTurnIndex := s.positionOf turnId }
  | .requestStream requestId stream data =>
    (s.collapseReasoning requestId stream).chunk requestId (·.streamChunk requestId stream data)
  | .toolCallStarted requestId callId name args description =>
    s.chunk requestId (·.toolCallStarted requestId callId name args description)
  | .toolResultChunk requestId callId data =>
    s.chunk requestId (·.toolResultChunk requestId callId data)
  | .sessionState turns => (s.handleSessionState turns).markContentChanged
  | .done requestId | .failed requestId => (s.modifyView (·.endRequest requestId)).markContentChanged
  | .toggleReasoning id => s.toggleReasoning id
  | .toggleToolResult id callId => s.toggleToolResult id callId
  | .switchTo => s.resetForSessionSwitch
  | .layout => s.computeTotalHeightAndMarkers r vp

end SessionDisplayState

end Choreo
