import Choreo.Tui.Layout

/-!
# Incremental layout

A layout pass that renders only what changed leaves the same as one that renders everything. The key
of every cached slot counts the changes of its turn, so a slot with the current key has the lines
that a fresh rendering gives. A pass that lays out the streaming turn only is right as long as every
other slot has the current key and the streaming turn shows no image below a text that grows.
-/

namespace Choreo

open List Option

namespace SessionDisplayState

variable {Line : Type*} (r : Renderer Line) (vp : HistoryViewport)

/-! ### A fresh rendering -/

def live (turns : TurnMap) : List (ℕ × Turn) := turns.toList.filter fun p => !p.2.undone

variable (s : SessionDisplayState Line)

/-- The slot of a turn as it is. -/
def entryOf (p : ℕ × Turn) : RenderedCache Line :=
  ⟨s.cacheKey vp p.1 p.2, s.freshLines r vp p.1 p.2⟩

def rowsOf (p : ℕ × Turn) : ℕ :=
  heightOf vp p.2 (s.freshLines r vp p.1 p.2)

/-- Everything is as a fresh rendering gives it. -/
structure LaidOut (s : SessionDisplayState Line) : Prop where
  visible : s.visibleTurnIds = (live s.view.turns).map Prod.fst
  cache : s.renderCache = (live s.view.turns).map fun p => some (s.entryOf r vp p)
  heights : s.turnHeights = (live s.view.turns).map (s.rowsOf r vp)
  layouts : s.turnLayouts =
    (live s.view.turns).map fun p => layoutOf vp p.2 (s.freshLines r vp p.1 p.2)
  sums : s.heightPrefix = prefixSums 0 s.turnHeights
  markers : s.markers = s.laidOutMarkers vp

variable {r vp} {s : SessionDisplayState Line}

theorem rebuildLoop_eq {turns : List (ℕ × Turn)}
    (hvalid : ∀ e, some e ∈ s.renderCache → ∀ p ∈ turns, e.key = s.cacheKey vp p.1 p.2 →
      e.rendered = s.freshLines r vp p.1 p.2) (idx total : ℕ) :
    let shown := turns.filter fun p => !p.2.undone
    s.rebuildLoop r vp idx total turns =
      { cache := shown.map fun p => some (s.entryOf r vp p)
        visible := shown.map Prod.fst
        heights := shown.map (s.rowsOf r vp)
        sums := prefixSums total (shown.map (s.rowsOf r vp))
        starts := startLines total (shown.map fun p => (p.2.userText.isSome, s.rowsOf r vp p))
        layouts := shown.map fun p => layoutOf vp p.2 (s.freshLines r vp p.1 p.2) } := by
  induction turns generalizing idx total with
  | nil => rfl
  | cons p rest ih =>
    obtain ⟨id, turn⟩ := p
    have hrest := ih fun e he p hp => hvalid e he p (mem_cons_of_mem _ hp)
    by_cases hundone : turn.undone = true
    · have hshown : ((id, turn) :: rest).filter (fun p => !p.2.undone) =
          rest.filter fun p => !p.2.undone := by simp [hundone]
      simp only [rebuildLoop, if_pos hundone, hshown]
      exact hrest idx total
    · have hshown : ((id, turn) :: rest).filter (fun p => !p.2.undone) =
          (id, turn) :: rest.filter fun p => !p.2.undone := by simp [hundone]
      have hentry : cachedOrComputeLines (s.renderCache.getD idx none) (s.cacheKey vp id turn)
          (s.freshLines r vp id turn) = s.entryOf r vp (id, turn) := by
        rcases hslot : s.renderCache.getD idx none with _ | e
        · rfl
        · simp only [cachedOrComputeLines]
          split
          · rename_i hkey
            have hmem : some e ∈ s.renderCache := by
              rw [getD_eq_getElem?_getD] at hslot
              rcases hget : s.renderCache[idx]? with _ | slot
              · rw [hget] at hslot
                cases hslot
              · rw [hget, getD_some] at hslot
                exact hslot ▸ mem_of_getElem? hget
            have hlines := hvalid e hmem (id, turn) mem_cons_self hkey
            rcases e with ⟨key, rendered⟩
            subst hkey hlines
            rfl
          · rfl
      simp only [rebuildLoop, if_neg hundone, hshown, hentry, hrest, map_cons, prefixSums,
        startLines]
      rfl

theorem zip_map_map {α β γ : Type*} (f : α → β) (g : α → γ) (l : List α) :
    (l.map f).zip (l.map g) = l.map fun a => (f a, g a) := by
  induction l with
  | nil => rfl
  | cons a l ih => rw [map_cons, map_cons, map_cons, zip_cons_cons, ih]

theorem mem_live {turns : TurnMap} {p : ℕ × Turn} :
    p ∈ live turns ↔ turns[p.1]? = some p.2 ∧ p.2.undone = false := by
  rw [live, mem_filter, Std.ExtTreeMap.mem_toList_iff_getElem?_eq_some]
  simp

/-- The markers of a fresh rendering. -/
theorem starts_eq {turns : TurnMap} (hview : s.view.turns = turns) (rows : ℕ × Turn → ℕ) :
    (((live turns).map Prod.fst).zip ((live turns).map rows)).map
        (fun p => (s.hasPrompt p.1, p.2)) =
      (live turns).map fun p => (p.2.userText.isSome, rows p) := by
  rw [zip_map_map, List.map_map]
  refine map_congr_left fun p hp => ?_
  have hget : s.view.turns[p.1]? = some p.2 := hview ▸ (mem_live.1 hp).1
  simp [hasPrompt, hget]

theorem laidOut_rebuildHeightPrefix
    (hvalid : ∀ e, some e ∈ s.renderCache → ∀ p ∈ s.view.turns.toList,
      e.key = s.cacheKey vp p.1 p.2 → e.rendered = s.freshLines r vp p.1 p.2) :
    LaidOut r vp (s.rebuildHeightPrefix r vp) := by
  have hloop := rebuildLoop_eq hvalid 0 0
  have hview : (s.rebuildHeightPrefix r vp).view.turns = s.view.turns := rfl
  have hstarts := starts_eq hview (s.rowsOf r vp)
  simp only at hloop
  refine ⟨?_, ?_, ?_, ?_, ?_, ?_⟩
  · simp only [rebuildHeightPrefix, hloop]; rfl
  · simp only [rebuildHeightPrefix, hloop]; rfl
  · simp only [rebuildHeightPrefix, hloop]; rfl
  · simp only [rebuildHeightPrefix, hloop]; rfl
  · simp only [rebuildHeightPrefix, hloop]
  · have hvisible : (s.rebuildHeightPrefix r vp).visibleTurnIds =
        (live s.view.turns).map Prod.fst := by simp only [rebuildHeightPrefix, hloop]; rfl
    have hheights : (s.rebuildHeightPrefix r vp).turnHeights =
        (live s.view.turns).map (s.rowsOf r vp) := by simp only [rebuildHeightPrefix, hloop]; rfl
    have hmarkers : (s.rebuildHeightPrefix r vp).markers =
        vp.markersAt ((s.rebuildHeightPrefix r vp).heightPrefix.getLast?.getD 0)
          (startLines 0 ((live s.view.turns).map fun p =>
            (p.2.userText.isSome, s.rowsOf r vp p))) := by
      simp only [rebuildHeightPrefix, hloop]; rfl
    rw [laidOutMarkers, hvisible, hheights, hstarts, hmarkers]

/-- The same view and the same choices, laid out from an empty cache. -/
def fromScratch (r : Renderer Line) (vp : HistoryViewport) (s : SessionDisplayState Line) :
    SessionDisplayState Line :=
  ({ s with renderCache := [] } : SessionDisplayState Line).rebuildHeightPrefix r vp

/-- What is laid out is what a rebuild from an empty cache gives: the visible turns, the heights, the
markers, the click ranges and the lines. -/
structure AsFromScratch (r : Renderer Line) (vp : HistoryViewport) (s : SessionDisplayState Line) :
    Prop where
  visible : s.visibleTurnIds = (s.fromScratch r vp).visibleTurnIds
  heights : s.turnHeights = (s.fromScratch r vp).turnHeights
  sums : s.heightPrefix = (s.fromScratch r vp).heightPrefix
  markers : s.markers = (s.fromScratch r vp).markers
  layouts : s.turnLayouts = (s.fromScratch r vp).turnLayouts
  lines : s.renderCache.map (Option.map RenderedCache.rendered) =
    (s.fromScratch r vp).renderCache.map (Option.map RenderedCache.rendered)

theorem laidOut_fromScratch (r : Renderer Line) (vp : HistoryViewport)
    (s : SessionDisplayState Line) : LaidOut r vp (s.fromScratch r vp) :=
  laidOut_rebuildHeightPrefix fun _ he => absurd he not_mem_nil

theorem LaidOut.asFromScratch (h : LaidOut r vp s) : s.AsFromScratch r vp := by
  have hscratch := laidOut_fromScratch r vp s
  have hheights := h.heights.trans hscratch.heights.symm
  have hvisible := h.visible.trans hscratch.visible.symm
  have hsums := h.sums.trans ((congrArg (prefixSums 0) hheights).trans hscratch.sums.symm)
  have hmarkers : s.laidOutMarkers vp = (s.fromScratch r vp).laidOutMarkers vp := by
    simp only [laidOutMarkers, hsums, hvisible, hheights]
    rfl
  have hlines : s.renderCache.map (Option.map RenderedCache.rendered) =
      (s.fromScratch r vp).renderCache.map (Option.map RenderedCache.rendered) := by
    rw [h.cache, hscratch.cache]
    rfl
  exact ⟨hvisible, hheights, hsums, h.markers.trans (hmarkers.trans hscratch.markers.symm),
    h.layouts.trans hscratch.layouts.symm, hlines⟩

/-! ### What holds between two passes -/

/-- Every slot belongs to the turn laid out there; it is no newer than the turn, and has the lines of
the turn as it is when it is as new. -/
structure CacheOk (r : Renderer Line) (vp : HistoryViewport) (s : SessionDisplayState Line) :
    Prop where
  nodup : s.visibleTurnIds.Nodup
  known : ∀ id ∈ s.visibleTurnIds, (s.view.turns[id]?).isSome
  slot : ∀ (i : ℕ) (e : RenderedCache Line), s.renderCache[i]? = some (some e) →
    s.visibleTurnIds[i]? = some e.key.turnId
  version : ∀ (i : ℕ) (e : RenderedCache Line), s.renderCache[i]? = some (some e) →
    e.key.contentVersion ≤ s.turnContentVersion e.key.turnId
  fresh : ∀ (i : ℕ) (e : RenderedCache Line) turn, s.renderCache[i]? = some (some e) →
    e.key.contentVersion = s.turnContentVersion e.key.turnId →
    s.view.turns[e.key.turnId]? = some turn →
    e.rendered = r.rendered vp turn e.key.reasoningExpanded e.key.toolResultsCollapsed

/-- The row of a turn: a slot, its height and its click ranges, those of the images being below some
text; with the current key they are those of the turn as it is. -/
def Row (r : Renderer Line) (vp : HistoryViewport) (s : SessionDisplayState Line) (i id : ℕ)
    (turn : Turn) : Prop :=
  ∃ (e : RenderedCache Line) (text : ℕ) (layout : TurnLayout),
    s.renderCache[i]? = some (some e) ∧
    s.turnHeights[i]? = some (text + turn.displayedImages.length * vp.imageBlockHeight) ∧
    s.turnLayouts[i]? = some layout ∧
    layout.imageRanges = imageRanges text vp.imageBlockHeight turn.displayedImages.length ∧
    (e.key = s.cacheKey vp id turn →
      text = (s.freshLines r vp id turn).height ∧
        layout = layoutOf vp turn (s.freshLines r vp id turn))

/-- No turn came, went or was replaced since the last pass. -/
structure Settled (r : Renderer Line) (vp : HistoryViewport) (s : SessionDisplayState Line) :
    Prop where
  visible : s.visibleTurnIds = (live s.view.turns).map Prod.fst
  lengths : s.renderCache.length = s.visibleTurnIds.length ∧
    s.turnHeights.length = s.visibleTurnIds.length ∧
    s.turnLayouts.length = s.visibleTurnIds.length
  sums : s.heightPrefix = prefixSums 0 s.turnHeights
  markers : s.markers = s.laidOutMarkers vp
  row : ∀ i id turn, s.visibleTurnIds[i]? = some id → s.view.turns[id]? = some turn →
    s.Row r vp i id turn

def Current (vp : HistoryViewport) (s : SessionDisplayState Line) (i : ℕ) : Prop :=
  ∀ (e : RenderedCache Line) id turn, s.renderCache[i]? = some (some e) →
    s.visibleTurnIds[i]? = some id →
    s.view.turns[id]? = some turn → e.key = s.cacheKey vp id turn

/-- What holds between two passes. -/
structure Inv (r : Renderer Line) (vp : HistoryViewport) (s : SessionDisplayState Line) : Prop where
  cacheOk : s.CacheOk r vp
  settled : s.markersDirty = false → s.Settled r vp
  current : s.markersDirty = false → s.streamingDirty = false → ∀ i, s.Current vp i

variable {turn : Turn}

theorem CacheOk.freshLines (h : s.CacheOk r vp) {i : ℕ} {e : RenderedCache Line} {id : ℕ}
    (hslot : s.renderCache[i]? = some (some e)) (hget : s.view.turns[id]? = some turn)
    (hkey : e.key = s.cacheKey vp id turn) : e.rendered = s.freshLines r vp id turn := by
  have hid : e.key.turnId = id := by rw [hkey]; rfl
  have hversion : e.key.contentVersion = s.turnContentVersion e.key.turnId := by
    rw [hid, hkey]; rfl
  rw [h.fresh i e turn hslot hversion (hid ▸ hget), hkey]
  rfl

/-- A rebuild lays everything out. -/
theorem CacheOk.laidOut (h : s.CacheOk r vp) : LaidOut r vp (s.rebuildHeightPrefix r vp) := by
  refine laidOut_rebuildHeightPrefix fun e he p hp hkey => ?_
  obtain ⟨i, hi⟩ := List.getElem?_of_mem he
  exact h.freshLines hi (Std.ExtTreeMap.mem_toList_iff_getElem?_eq_some.1 hp) hkey

theorem nodup_live (turns : TurnMap) : ((live turns).map Prod.fst).Nodup :=
  (Std.ExtTreeMap.nodup_map_fst_toList turns).sublist (filter_sublist.map _)

theorem getElem?_live {turns : TurnMap} {i id : ℕ}
    (hi : ((live turns).map Prod.fst)[i]? = some id) (hget : turns[id]? = some turn) :
    (live turns)[i]? = some (id, turn) := by
  rw [List.getElem?_map] at hi
  obtain ⟨p, hp, rfl⟩ := map_eq_some_iff.1 hi
  have hturn := (mem_live.1 (mem_of_getElem? hp)).1
  rw [hp, ← some.inj (hturn.symm.trans hget)]

/-- After a fresh rendering everything holds. -/
theorem LaidOut.inv (h : LaidOut r vp s) : s.Inv r vp := by
  have hslot (i : ℕ) (e : RenderedCache Line) (hi : s.renderCache[i]? = some (some e)) :
      ∃ p, (live s.view.turns)[i]? = some p ∧ e = s.entryOf r vp p := by
    rw [h.cache, List.getElem?_map] at hi
    obtain ⟨p, hp, he⟩ := map_eq_some_iff.1 hi
    exact ⟨p, hp, (some.inj he).symm⟩
  have hmem {i : ℕ} {p : ℕ × Turn} (hp : (live s.view.turns)[i]? = some p) :
      s.view.turns[p.1]? = some p.2 := (mem_live.1 (mem_of_getElem? hp)).1
  refine ⟨⟨?_, ?_, ?_, ?_, ?_⟩, fun _ => ⟨h.visible, ?_, h.sums, h.markers, ?_⟩, fun _ _ i => ?_⟩
  · rw [h.visible]
    exact nodup_live s.view.turns
  · intro id hid
    rw [h.visible] at hid
    obtain ⟨p, hp, rfl⟩ := List.mem_map.1 hid
    rw [(mem_live.1 hp).1]
    rfl
  · intro i e hi
    obtain ⟨p, hp, rfl⟩ := hslot i e hi
    rw [h.visible, List.getElem?_map, hp]
    rfl
  · intro i e hi
    obtain ⟨p, -, rfl⟩ := hslot i e hi
    exact le_rfl
  · intro i e turn hi _ hget
    obtain ⟨p, hp, rfl⟩ := hslot i e hi
    have hturn : some p.2 = some turn := (hmem hp).symm.trans hget
    cases hturn
    rfl
  · simp [h.cache, h.heights, h.layouts, h.visible]
  · intro i id turn hi hget
    rw [h.visible] at hi
    have hp := getElem?_live hi hget
    refine ⟨s.entryOf r vp (id, turn), (s.freshLines r vp id turn).height,
      layoutOf vp turn (s.freshLines r vp id turn), ?_, ?_, ?_, rfl, fun _ => ⟨rfl, rfl⟩⟩
    · rw [h.cache, List.getElem?_map, hp]
      rfl
    · rw [h.heights, List.getElem?_map, hp]
      rfl
    · rw [h.layouts, List.getElem?_map, hp]
      rfl
  · intro e id turn hi hvisible hget
    obtain ⟨p, hp, rfl⟩ := hslot i e hi
    rw [h.visible, List.getElem?_map, hp] at hvisible
    cases hvisible
    have hturn : some p.2 = some turn := (hmem hp).symm.trans hget
    cases hturn
    rfl

theorem eq_map_of_getElem? {α β : Type*} {l : List α} {m : List β} (f : α → β)
    (hlength : m.length = l.length) (h : ∀ (i : ℕ) a, l[i]? = some a → m[i]? = some (f a)) :
    m = l.map f := by
  refine ext_getElem? fun i => ?_
  rw [List.getElem?_map]
  rcases hi : l[i]? with _ | a
  · rw [List.getElem?_eq_none_iff] at hi
    exact List.getElem?_eq_none_iff.2 (hlength ▸ hi)
  · exact h i a hi

/-- When every slot is current, everything is as a fresh rendering gives it. -/
theorem Settled.laidOut (h : s.Settled r vp) (hok : s.CacheOk r vp)
    (hcurrent : ∀ i, s.Current vp i) : LaidOut r vp s := by
  have hlength : s.visibleTurnIds.length = (live s.view.turns).length := by
    rw [h.visible, List.length_map]
  have hrow (i : ℕ) (p : ℕ × Turn) (hp : (live s.view.turns)[i]? = some p) :
      s.renderCache[i]? = some (some (s.entryOf r vp p)) ∧
        s.turnHeights[i]? = some (s.rowsOf r vp p) ∧
        s.turnLayouts[i]? = some (layoutOf vp p.2 (s.freshLines r vp p.1 p.2)) := by
    have hi : s.visibleTurnIds[i]? = some p.1 := by rw [h.visible, List.getElem?_map, hp]; rfl
    have hget := (mem_live.1 (mem_of_getElem? hp)).1
    obtain ⟨e, text, layout, hslot, hheight, hlayout, -, hfresh⟩ := h.row i p.1 p.2 hi hget
    have hkey := hcurrent i e p.1 p.2 hslot hi hget
    obtain ⟨htext, rfl⟩ := hfresh hkey
    have hlines := hok.freshLines hslot hget hkey
    rcases e with ⟨key, rendered⟩
    subst hkey hlines
    exact ⟨hslot, by rw [hheight, htext]; rfl, hlayout⟩
  exact
    { visible := h.visible
      cache := eq_map_of_getElem? _ (h.lengths.1.trans hlength) fun i p hp => (hrow i p hp).1
      heights := eq_map_of_getElem? _ (h.lengths.2.1.trans hlength) fun i p hp => (hrow i p hp).2.1
      layouts := eq_map_of_getElem? _ (h.lengths.2.2.trans hlength) fun i p hp => (hrow i p hp).2.2
      sums := h.sums
      markers := h.markers }

/-! ### Laying out the streaming turn -/

theorem prefixSums_add (total d : ℕ) (heights : List ℕ) :
    prefixSums (total + d) heights = (prefixSums total heights).map (· + d) := by
  induction heights generalizing total with
  | nil => rfl
  | cons h hs ih =>
    rw [prefixSums, prefixSums, map_cons, Nat.add_right_comm, ih]

theorem prefixSums_set {heights : List ℕ} {idx old new : ℕ} (hget : heights[idx]? = some old)
    (hle : old ≤ new) (total : ℕ) :
    prefixSums total (heights.set idx new) =
      (prefixSums total heights).mapIdx fun i sum =>
        if idx ≤ i then sum + (new - old) else sum := by
  induction heights generalizing idx total with
  | nil => cases hget
  | cons h hs ih =>
    rw [prefixSums, mapIdx_cons]
    rcases idx with _ | idx
    · obtain rfl := some.inj hget
      have hnew : total + new = total + h + (new - h) := by omega
      rw [set_cons_zero, prefixSums, if_pos le_rfl, hnew, prefixSums_add]
      congr 1
      refine ext_getElem? fun i => ?_
      simp
    · rw [set_cons_succ, prefixSums, if_neg (by omega), ih hget]
      congr 1
      refine congrArg (List.mapIdx · _) ?_
      funext i sum
      simp

theorem set_of_getElem? {α : Type*} {l : List α} {i : ℕ} {a : α} (h : l[i]? = some a) :
    l.set i a = l := by
  refine ext_getElem? fun j => ?_
  rw [List.getElem?_set]
  by_cases hij : i = j
  · subst hij
    have hlt : i < l.length := (List.getElem?_eq_some_iff.1 h).1
    rw [if_pos rfl, if_pos hlt, h]
  · rw [if_neg hij]

variable {idx id : ℕ}

/-- Putting the lines of a turn as it is into its slot keeps the cache right. -/
theorem CacheOk.putStreaming (h : s.CacheOk r vp)
    (hvisible : s.visibleTurnIds[idx]? = some id) (hget : s.view.turns[id]? = some turn) :
    (s.putStreaming r vp idx id turn).CacheOk r vp := by
  have hslot (i : ℕ) (e : RenderedCache Line)
      (hi : (s.putStreaming r vp idx id turn).renderCache[i]? = some (some e)) :
      (i = idx ∧ e = s.entryOf r vp (id, turn)) ∨ s.renderCache[i]? = some (some e) := by
    simp only [SessionDisplayState.putStreaming, List.getElem?_set] at hi
    split at hi
    · rename_i hidx
      split at hi
      · exact .inl ⟨hidx.symm, (some.inj (some.inj hi)).symm⟩
      · cases hi
    · exact .inr hi
  refine ⟨h.nodup, h.known, fun i e hi => ?_, fun i e hi => ?_, fun i e turn' hi hv ht => ?_⟩ <;>
    rcases hslot i e hi with ⟨rfl, rfl⟩ | hold
  · exact hvisible
  · exact h.slot i e hold
  · exact le_rfl
  · exact h.version i e hold
  · have hsame : some turn = some turn' := hget.symm.trans ht
    cases hsame
    rfl
  · exact h.fresh i e turn' hold hv ht

variable {t : SessionDisplayState Line}

/-- The streaming turn was laid out alone: its slot, its height and the totals from it on. -/
def Streamed (r : Renderer Line) (vp : HistoryViewport) (s : SessionDisplayState Line) (idx id : ℕ)
    (turn : Turn) (t : SessionDisplayState Line) : Prop :=
  t = { s.putStreaming r vp idx id turn with
    turnHeights := s.turnHeights.set idx (s.rowsOf r vp (id, turn))
    heightPrefix := prefixSums 0 (s.turnHeights.set idx (s.rowsOf r vp (id, turn)))
    markers := t.markers, streamingDirty := t.streamingDirty } ∧
  (s.markers = s.laidOutMarkers vp → t.markers = t.laidOutMarkers vp)

/-- The streaming turn was laid out when nothing else changed: everything is as a fresh rendering
gives it, if the images are where they belong. -/
theorem Settled.streamed (h : s.Settled r vp)
    (hvisible : s.visibleTurnIds[idx]? = some id)
    (hget : s.view.turns[id]? = some turn)
    (hothers : ∀ i, i ≠ idx → s.Current vp i)
    (himages : ∀ layout, s.turnLayouts[idx]? = some layout → layout.imageRanges =
      imageRanges (s.freshLines r vp id turn).height vp.imageBlockHeight
        turn.displayedImages.length)
    (hstreamed : Streamed r vp s idx id turn t) : t.Settled r vp ∧ ∀ i, t.Current vp i := by
  obtain ⟨ht, hmarkers⟩ := hstreamed
  have hcache : t.renderCache = s.renderCache.set idx (some (s.entryOf r vp (id, turn))) := by
    rw [ht]; rfl
  have hlayouts : t.turnLayouts = s.turnLayouts.modify idx fun old =>
      { layoutOf vp turn (s.freshLines r vp id turn) with imageRanges := old.imageRanges } := by
    rw [ht]; rfl
  have hheights : t.turnHeights = s.turnHeights.set idx (s.rowsOf r vp (id, turn)) := by rw [ht]
  have hview : t.view = s.view := by rw [ht]; rfl
  have hids : t.visibleTurnIds = s.visibleTurnIds := by rw [ht]; rfl
  have hkey (id : ℕ) (turn : Turn) : t.cacheKey vp id turn = s.cacheKey vp id turn := by
    rw [ht]; rfl
  have hfresh (id : ℕ) (turn : Turn) :
      SessionDisplayState.freshLines r vp t id turn = s.freshLines r vp id turn := by
    rw [ht]; rfl
  obtain ⟨hlenCache, hlenHeights, hlenLayouts⟩ := h.lengths
  have hlt : idx < s.visibleTurnIds.length := (List.getElem?_eq_some_iff.1 hvisible).1
  refine ⟨⟨?_, ?_, ?_, hmarkers h.markers, ?_⟩, ?_⟩
  · rw [hids, hview, h.visible]
  · rw [hcache, hheights, hlayouts, hids, length_set, length_set, length_modify]
    exact h.lengths
  · rw [ht]
  · intro i id' turn' hi hturn
    rw [hids] at hi
    rw [hview] at hturn
    by_cases hidx : i = idx
    · subst hidx
      obtain rfl := some.inj (hvisible.symm.trans hi)
      obtain rfl := some.inj (hget.symm.trans hturn)
      obtain ⟨layout, hlayout⟩ : ∃ layout, s.turnLayouts[i]? = some layout :=
        ⟨_, List.getElem?_eq_getElem (by omega)⟩
      refine ⟨s.entryOf r vp (id, turn), (s.freshLines r vp id turn).height,
        layoutOf vp turn (s.freshLines r vp id turn), ?_, ?_, ?_, rfl, fun _ => ?_⟩
      · rw [hcache, List.getElem?_set_self (by omega)]
      · rw [hheights, List.getElem?_set_self (by omega)]
        rfl
      · rw [hlayouts, List.getElem?_modify_eq, hlayout]
        simp only [Option.map_eq_map, map_some, himages layout hlayout]
        rfl
      · rw [hfresh]
        exact ⟨rfl, rfl⟩
    · obtain ⟨e, text, layout, hslot, hheight, hlayout, hranges, hcur⟩ := h.row i id' turn' hi hturn
      refine ⟨e, text, layout, ?_, ?_, ?_, hranges, ?_⟩
      · rw [hcache, List.getElem?_set_ne (Ne.symm hidx), hslot]
      · rw [hheights, List.getElem?_set_ne (Ne.symm hidx), hheight]
      · rw [hlayouts, List.getElem?_modify_ne _ _ (Ne.symm hidx), hlayout]
      · rw [hkey, hfresh]
        exact hcur
  · intro i e id' turn' hslot hi hturn
    rw [hids] at hi
    rw [hview] at hturn
    rw [hcache, List.getElem?_set] at hslot
    rw [hkey]
    by_cases hidx : i = idx
    · subst hidx
      obtain rfl := some.inj (hvisible.symm.trans hi)
      obtain rfl := some.inj (hget.symm.trans hturn)
      rw [if_pos rfl, if_pos (by omega)] at hslot
      rw [← some.inj (some.inj hslot)]
      rfl
    · rw [if_neg (Ne.symm hidx)] at hslot
      exact hothers i hidx e id' turn' hslot hi hturn

/-! ### A layout pass -/

/-- The streaming turn can be laid out alone: unless it has shrunk, every other slot has the current
key, and the streaming turn has no image below a text of another height. -/
def StreamingAlone (r : Renderer Line) (vp : HistoryViewport) (s : SessionDisplayState Line) :
    Prop :=
  ∀ idx id turn, s.streamingTurnIndex = some idx → s.visibleTurnIds[idx]? = some id →
    s.view.turns[id]? = some turn → s.turnHeights.getD idx 0 ≤ s.rowsOf r vp (id, turn) →
    (∀ i, i ≠ idx → s.Current vp i) ∧
      (turn.displayedImages = [] ∨ s.rowsOf r vp (id, turn) = s.turnHeights.getD idx 0)

/-- A rebuild that also takes the chunks as laid out. -/
theorem CacheOk.laidOut_preservingScroll (h : s.CacheOk r vp) :
    LaidOut r vp (s.rebuildHeightPrefixPreservingScroll r vp) := by
  obtain ⟨hvisible, hcache, hheights, hlayouts, hsums, hmarkers⟩ := h.laidOut
  exact ⟨hvisible, hcache, hheights, hlayouts, hsums, hmarkers⟩

/-- The images of a laid out turn that has none, or whose height is the same, are where they
belong. -/
theorem Settled.imageRanges (h : s.Settled r vp)
    (hvisible : s.visibleTurnIds[idx]? = some id) (hget : s.view.turns[id]? = some turn)
    (himages : turn.displayedImages = [] ∨
      s.rowsOf r vp (id, turn) = s.turnHeights.getD idx 0) {layout : TurnLayout}
    (hlayout : s.turnLayouts[idx]? = some layout) :
    layout.imageRanges = Choreo.imageRanges (s.freshLines r vp id turn).height vp.imageBlockHeight
      turn.displayedImages.length := by
  obtain ⟨e, text, layout', -, hheight, hlayout', hranges, -⟩ := h.row idx id turn hvisible hget
  obtain rfl := some.inj (hlayout.symm.trans hlayout')
  rw [hranges]
  rcases himages with hnone | hsame
  · rw [hnone]
    rfl
  · rw [getD_eq_getElem?_getD, hheight, getD_some, rowsOf, heightOf] at hsame
    rw [Nat.add_right_cancel hsame]

theorem CacheOk.streamInto (h : s.CacheOk r vp) (hvisible : s.visibleTurnIds[idx]? = some id)
    (hget : s.view.turns[id]? = some turn) :
    LaidOut r vp (s.streamInto r vp idx id turn) ∨
      ((s.streamInto r vp idx id turn).CacheOk r vp ∧
        (s.streamInto r vp idx id turn).markersDirty = s.markersDirty ∧
        s.turnHeights.getD idx 0 ≤ s.rowsOf r vp (id, turn) ∧
        (s.turnHeights.length = s.visibleTurnIds.length →
          s.heightPrefix = prefixSums 0 s.turnHeights →
            Streamed r vp s idx id turn (s.streamInto r vp idx id turn))) := by
  have hput := h.putStreaming hvisible hget
  simp only [SessionDisplayState.streamInto]
  by_cases hshrunk : heightOf vp turn (s.freshLines r vp id turn) < s.turnHeights.getD idx 0
  · rw [if_neg (by omega), if_pos hshrunk]
    exact .inl hput.laidOut_preservingScroll
  right
  have hge : s.turnHeights.getD idx 0 ≤ s.rowsOf r vp (id, turn) := Nat.le_of_not_lt hshrunk
  have hold (hlength : s.turnHeights.length = s.visibleTurnIds.length) :
      s.turnHeights[idx]? = some (s.turnHeights.getD idx 0) := by
    have hlt : idx < s.turnHeights.length := by
      rw [hlength]
      exact (List.getElem?_eq_some_iff.1 hvisible).1
    rw [getD_eq_getElem?_getD, List.getElem?_eq_getElem hlt, getD_some]
  by_cases hgrown : s.turnHeights.getD idx 0 < heightOf vp turn (s.freshLines r vp id turn)
  · rw [if_pos hgrown]
    refine ⟨⟨hput.nodup, hput.known, hput.slot, hput.version, hput.fresh⟩, rfl, hge,
      fun hlength hsums => ⟨?_, fun _ => rfl⟩⟩
    rw [prefixSums_set (hold hlength) hge, ← hsums]
    rfl
  · rw [if_neg hgrown, if_neg hshrunk]
    refine ⟨⟨hput.nodup, hput.known, hput.slot, hput.version, hput.fresh⟩, rfl, hge,
      fun hlength hsums => ⟨?_, fun hmarkers => hmarkers⟩⟩
    have hsame : s.turnHeights.set idx (s.rowsOf r vp (id, turn)) = s.turnHeights :=
      set_of_getElem? ((hold hlength).trans
        (congrArg some (le_antisymm hge (Nat.le_of_not_lt hgrown))))
    rw [hsame, ← hsums]
    rfl

theorem Inv.streamInto (h : s.Inv r vp)
    (hindex : s.streamingTurnIndex = some idx) (hvisible : s.visibleTurnIds[idx]? = some id)
    (hget : s.view.turns[id]? = some turn)
    (halone : s.markersDirty = false → s.StreamingAlone r vp) :
    LaidOut r vp (s.streamInto r vp idx id turn) ∨
      ((s.streamInto r vp idx id turn).markersDirty = true ∧
        (s.streamInto r vp idx id turn).CacheOk r vp) := by
  rcases h.cacheOk.streamInto hvisible hget with hlaid | ⟨hok, hsame, hge, hstreamed⟩
  · exact .inl hlaid
  rcases hdirty : s.markersDirty with _ | _
  · have hsettled := h.settled hdirty
    obtain ⟨hothers, himages⟩ := halone hdirty idx id turn hindex hvisible hget hge
    obtain ⟨hnew, hcurrent⟩ := hsettled.streamed hvisible hget hothers
      (fun layout hlayout => hsettled.imageRanges hvisible hget himages hlayout)
      (hstreamed hsettled.lengths.2.1 hsettled.sums)
    exact .inl (hnew.laidOut hok hcurrent)
  · exact .inr ⟨hsame.trans hdirty, hok⟩

/-- A pass over chunks lays out everything, or the streaming turn if it is known. -/
theorem applyStreamingUpdate_cases {P : SessionDisplayState Line → Prop}
    (hrebuild : P (s.rebuildHeightPrefixPreservingScroll r vp))
    (hstream : ∀ idx id turn, s.streamingTurnIndex = some idx →
      s.visibleTurnIds[idx]? = some id → s.view.turns[id]? = some turn →
        P (s.streamInto r vp idx id turn)) : P (s.applyStreamingUpdate r vp) := by
  rw [SessionDisplayState.applyStreamingUpdate]
  split
  · exact hrebuild
  · rename_i idx hindex
    split
    · exact hrebuild
    · rename_i id hvisible
      split
      · exact hrebuild
      · rename_i turn hget
        split
        · exact hrebuild
        · split
          · exact hstream idx id turn hindex hvisible hget
          · exact hrebuild

theorem Inv.applyStreamingUpdate (h : s.Inv r vp)
    (halone : s.markersDirty = false → s.StreamingAlone r vp) :
    LaidOut r vp (s.applyStreamingUpdate r vp) ∨
      ((s.applyStreamingUpdate r vp).markersDirty = true ∧
        (s.applyStreamingUpdate r vp).CacheOk r vp) :=
  applyStreamingUpdate_cases
    (P := fun t => LaidOut r vp t ∨ (t.markersDirty = true ∧ t.CacheOk r vp))
    (.inl h.cacheOk.laidOut_preservingScroll)
    fun _ _ _ hindex hvisible hget => h.streamInto hindex hvisible hget halone

theorem Inv.laidOut_layout (h : s.Inv r vp)
    (halone : s.streamingDirty = true → s.markersDirty = false → s.StreamingAlone r vp) :
    LaidOut r vp (s.computeTotalHeightAndMarkers r vp) := by
  have hfinish (t : SessionDisplayState Line)
      (ht : LaidOut r vp t ∨ (t.markersDirty = true ∧ t.CacheOk r vp)) :
      LaidOut r vp (if t.markersDirty then t.rebuildHeightPrefixPreservingScroll r vp else t) := by
    rcases ht with hlaid | ⟨hdirty, hok⟩
    · split
      · exact hlaid.inv.cacheOk.laidOut_preservingScroll
      · exact hlaid
    · rw [if_pos hdirty]
      exact hok.laidOut_preservingScroll
  rw [computeTotalHeightAndMarkers]
  refine hfinish _ ?_
  split
  · rename_i hstreaming
    exact h.applyStreamingUpdate (halone hstreaming)
  · rename_i hstreaming
    rcases hdirty : s.markersDirty with _ | _
    · exact .inl ((h.settled hdirty).laidOut h.cacheOk
        (h.current hdirty (Bool.eq_false_iff.2 hstreaming)))
    · exact .inr ⟨rfl, h.cacheOk⟩

/-! ### Whole turns -/

theorem turnContentVersion_bumpTurnVersion (id other : ℕ) :
    (s.bumpTurnVersion id).turnContentVersion other =
      if other = id then (s.turnContentVersion id + 1) % 2 ^ 64
      else s.turnContentVersion other := by
  simp only [turnContentVersion, bumpTurnVersion, Std.ExtTreeMap.get_insert]
  split <;> rfl

theorem getElem?_of_positionOf {id idx : ℕ} (h : s.positionOf id = some idx) :
    s.visibleTurnIds[idx]? = some id := by
  obtain ⟨hlt, heq, -⟩ := List.findIdx?_eq_some_iff_getElem.1 h
  rw [List.getElem?_eq_getElem hlt, eq_of_beq heq]

theorem notMem_of_positionOf {id : ℕ} (h : s.positionOf id = none) : id ∉ s.visibleTurnIds := by
  intro hmem
  have hne := List.findIdx?_eq_none_iff.1 h id hmem
  simp at hne

/-- Slots, versions and turns may change together: a slot that stays is of a turn that is as it was,
or is counted as changed. -/
theorem CacheOk.mono (h : s.CacheOk r vp)
    (hvisible : t.visibleTurnIds = s.visibleTurnIds)
    (hslots : ∀ (i : ℕ) (e : RenderedCache Line), t.renderCache[i]? = some (some e) →
      s.renderCache[i]? = some (some e))
    (hknown : ∀ id : ℕ, (s.view.turns[id]?).isSome → (t.view.turns[id]?).isSome)
    (hturns : ∀ (i : ℕ) (e : RenderedCache Line), t.renderCache[i]? = some (some e) →
      s.turnContentVersion e.key.turnId < t.turnContentVersion e.key.turnId ∨
        (t.turnContentVersion e.key.turnId = s.turnContentVersion e.key.turnId ∧
          t.view.turns[e.key.turnId]? = s.view.turns[e.key.turnId]?)) :
    t.CacheOk r vp := by
  refine ⟨hvisible ▸ h.nodup, fun id hid => hknown id (h.known id (hvisible ▸ hid)),
    fun i e hi => hvisible ▸ h.slot i e (hslots i e hi), fun i e hi => ?_,
    fun i e turn hi hversion hget => ?_⟩ <;>
    have hle := h.version i e (hslots i e hi) <;>
    rcases hturns i e hi with hlt | ⟨hsame, hturn⟩
  · omega
  · omega
  · omega
  · exact h.fresh i e turn (hslots i e hi) (hversion.trans hsame) (hturn ▸ hget)

theorem invalidateTurnCache_frame (id : ℕ) :
    (s.invalidateTurnCache id).visibleTurnIds = s.visibleTurnIds ∧
      (s.invalidateTurnCache id).view = s.view ∧
      (s.invalidateTurnCache id).turnVersions = s.turnVersions := by
  rw [invalidateTurnCache]
  split <;> exact ⟨rfl, rfl, rfl⟩

theorem CacheOk.slot_invalidateTurnCache (h : s.CacheOk r vp) {id i : ℕ} {e : RenderedCache Line}
    (hi : (s.invalidateTurnCache id).renderCache[i]? = some (some e)) :
    s.renderCache[i]? = some (some e) ∧ e.key.turnId ≠ id := by
  rw [invalidateTurnCache] at hi
  split at hi
  · rename_i hposition
    refine ⟨hi, fun heq => notMem_of_positionOf hposition ?_⟩
    exact heq ▸ mem_of_getElem? (h.slot i e hi)
  · rename_i idx hposition
    simp only [List.getElem?_set] at hi
    split at hi
    · split at hi <;> cases hi
    · rename_i hne
      refine ⟨hi, fun heq => hne ?_⟩
      have hvisible := getElem?_of_positionOf hposition
      have hslot : s.visibleTurnIds[i]? = some id := heq ▸ h.slot i e hi
      have hlt := (List.getElem?_eq_some_iff.1 hvisible).1
      exact (List.getElem?_inj hlt h.nodup).1 (hvisible.trans hslot.symm)

theorem CacheOk.invalidateTurnCache (h : s.CacheOk r vp) (id : ℕ) :
    (s.invalidateTurnCache id).CacheOk r vp := by
  obtain ⟨hvisible, hview, hversions⟩ := s.invalidateTurnCache_frame id
  refine h.mono hvisible (fun i e hi => (h.slot_invalidateTurnCache hi).1)
    (fun id hid => by rw [hview]; exact hid) fun i e _ => .inr ⟨?_, by rw [hview]⟩
  simp only [turnContentVersion, hversions]

theorem CacheOk.change (h : s.CacheOk r vp) (id : ℕ)
    (hvisible : t.visibleTurnIds = s.visibleTurnIds)
    (hcache : t.renderCache = (s.invalidateTurnCache id).renderCache)
    (hknown : ∀ other : ℕ, (s.view.turns[other]?).isSome → (t.view.turns[other]?).isSome)
    (hothers : ∀ other : ℕ, other ≠ id → t.turnContentVersion other = s.turnContentVersion other ∧
      t.view.turns[other]? = s.view.turns[other]?) : t.CacheOk r vp := by
  refine h.mono hvisible (fun i e hi => ?_) hknown fun i e hi => .inr ?_
  · rw [hcache] at hi
    exact (h.slot_invalidateTurnCache hi).1
  · rw [hcache] at hi
    exact hothers _ (h.slot_invalidateTurnCache hi).2

theorem CacheOk.replaceTurn (h : s.CacheOk r vp) (id : ℕ) (turn : Turn) :
    (s.replaceTurn id turn).CacheOk r vp := by
  obtain ⟨hvisible, hview, hversions⟩ := s.invalidateTurnCache_frame id
  have hturns (other : ℕ) : (s.replaceTurn id turn).view.turns[other]? =
      if other = id then some turn else s.view.turns[other]? := by
    change ((s.invalidateTurnCache id).view.insertOrReplace id turn).turns[other]? = _
    rw [SessionView.get_insertOrReplace, hview]
  refine h.change id hvisible rfl (fun other hother => ?_) fun other hne => ⟨?_, ?_⟩
  · rw [hturns]
    split
    · rfl
    · exact hother
  · change ((s.invalidateTurnCache id).bumpTurnVersion id).turnContentVersion other = _
    rw [turnContentVersion_bumpTurnVersion, if_neg hne, turnContentVersion, hversions]
    rfl
  · rw [hturns, if_neg hne]

theorem CacheOk.undoTurn (h : s.CacheOk r vp) (id : ℕ) : (s.undoTurn id).CacheOk r vp := by
  obtain ⟨hvisible, hview, hversions⟩ := s.invalidateTurnCache_frame id
  have hturns (other : ℕ) : (s.undoTurn id).view.turns[other]? =
      if other = id then (s.view.turns[other]?).map (Turn.setUndone true)
      else s.view.turns[other]? := by
    change ((s.invalidateTurnCache id).view.turns.modify id (Turn.setUndone true))[other]? = _
    rw [Std.ExtTreeMap.get_modify, hview]
  refine h.change id hvisible rfl (fun other hother => ?_) fun other hne => ⟨?_, ?_⟩
  · rw [hturns]
    split
    · rw [isSome_map]
      exact hother
    · exact hother
  · change (((s.invalidateTurnCache id).turnVersions.erase id)[other]?).getD 0 = _
    rw [Std.ExtTreeMap.get_erase, if_neg hne, hversions]
    rfl
  · rw [hturns, if_neg hne]

theorem CacheOk.foldl {α : Type*} {f : SessionDisplayState Line → α → SessionDisplayState Line}
    (hf : ∀ s a, CacheOk r vp s → CacheOk r vp (f s a)) (as : List α) (h : s.CacheOk r vp) :
    (as.foldl f s).CacheOk r vp := by
  induction as generalizing s with
  | nil => exact h
  | cons a as ih => exact ih (hf s a h)

theorem CacheOk.inv (h : s.CacheOk r vp) (hdirty : s.markersDirty = true) : s.Inv r vp :=
  ⟨h, fun hclean => absurd (hdirty.symm.trans hclean) Bool.noConfusion,
    fun hclean => absurd (hdirty.symm.trans hclean) Bool.noConfusion⟩

theorem CacheOk.markContentChanged (h : s.CacheOk r vp) : s.markContentChanged.Inv r vp :=
  CacheOk.inv ⟨h.nodup, h.known, h.slot, h.version, h.fresh⟩ rfl

end SessionDisplayState

end Choreo
