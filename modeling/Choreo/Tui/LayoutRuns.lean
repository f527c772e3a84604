import Choreo.Library.Runs
import Choreo.Tui.LayoutPass

/-!
# Layout over whole runs

Every event keeps what holds between two passes, so that a pass lays everything out as a fresh
rendering does whenever the turn it takes for the streaming one is the only one that changed.
-/

namespace Choreo

open List Option

namespace SessionDisplayState

variable {Line : Type*} {r : Renderer Line} {vp : HistoryViewport} {s : SessionDisplayState Line}

/-! ### Chunks -/

/-- Some turns have grown and are counted as changed; nothing was laid out. -/
structure Touched (vp : HistoryViewport) (s t : SessionDisplayState Line) : Prop where
  visible : t.visibleTurnIds = s.visibleTurnIds
  cache : t.renderCache = s.renderCache
  heights : t.turnHeights = s.turnHeights
  sums : t.heightPrefix = s.heightPrefix
  markers : t.markers = s.markers
  layouts : t.turnLayouts = s.turnLayouts
  frame : ∀ id : ℕ, (t.view.turns[id]?).map Turn.frame = (s.view.turns[id]?).map Turn.frame
  changed : ∀ id : ℕ, s.turnContentVersion id < t.turnContentVersion id ∨
    (t.turnContentVersion id = s.turnContentVersion id ∧
      t.view.turns[id]? = s.view.turns[id]? ∧
        ∀ turn, t.cacheKey vp id turn = s.cacheKey vp id turn)

variable {t : SessionDisplayState Line}

theorem Touched.cacheOk (ht : Touched vp s t)
    (h : s.CacheOk r vp) : t.CacheOk r vp := by
  refine h.mono ht.visible (fun i e hi => ht.cache ▸ hi) (fun id hid => ?_) fun i e _ => ?_
  · have hframe := congrArg Option.isSome (ht.frame id)
    rw [isSome_map, isSome_map] at hframe
    exact hframe.trans hid
  · exact (ht.changed e.key.turnId).imp_right fun hsame => ⟨hsame.1, hsame.2.1⟩

theorem Touched.exists_turn (ht : Touched vp s t) {id : ℕ}
    {turn' : Turn} (hget : t.view.turns[id]? = some turn') :
    ∃ turn, s.view.turns[id]? = some turn ∧ turn.frame = turn'.frame := by
  have hframe := ht.frame id
  rw [hget, map_some] at hframe
  exact map_eq_some_iff.1 hframe.symm

theorem Touched.live (ht : Touched vp s t) :
    (live t.view.turns).map Prod.fst = (live s.view.turns).map Prod.fst := by
  refine Std.ExtTreeMap.map_fst_filter_congr (p := fun turn : Turn => !turn.undone) fun id => ?_
  have hany (o : Option Turn) :
      o.any (fun turn => !turn.undone) = (o.map Turn.frame).any fun frame => !frame.1 := by
    rcases o with _ | turn <;> rfl
  rw [hany, hany, ht.frame]

/-- A turn that has grown keeps its row until the next pass. -/
theorem Touched.settled (ht : Touched vp s t)
    (hok : s.CacheOk r vp) (h : s.Settled r vp) : t.Settled r vp := by
  have hprompt (id : ℕ) : t.hasPrompt id = s.hasPrompt id := by
    have hframe := ht.frame id
    rw [hasPrompt, hasPrompt]
    rcases ht' : t.view.turns[id]? with _ | turn' <;> rcases hs' : s.view.turns[id]? with _ | turn
    · rfl
    · rw [ht', hs'] at hframe
      cases hframe
    · rw [ht', hs'] at hframe
      cases hframe
    · rw [ht', hs'] at hframe
      have htext := congrArg (fun frame => frame.2.1) (some.inj hframe)
      simp only [Turn.frame] at htext
      simp only [htext]
  refine ⟨?_, ?_, ?_, ?_, fun i id turn' hi hget => ?_⟩
  · rw [ht.visible, h.visible, ht.live]
  · rw [ht.cache, ht.heights, ht.layouts, ht.visible]
    exact h.lengths
  · rw [ht.sums, ht.heights]
    exact h.sums
  · rw [ht.markers, h.markers]
    simp only [laidOutMarkers, ht.sums, ht.visible, ht.heights, hprompt]
  · rw [ht.visible] at hi
    obtain ⟨turn, hturn, hframe⟩ := ht.exists_turn hget
    have himages : turn.displayedImages = turn'.displayedImages :=
      congrArg (fun frame => frame.2.2) hframe
    obtain ⟨e, text, layout, hslot, hheight, hlayout, hranges, hfresh⟩ := h.row i id turn hi hturn
    refine ⟨e, text, layout, ht.cache ▸ hslot, ?_, ht.layouts ▸ hlayout, himages ▸ hranges,
      fun hkey => ?_⟩
    · rw [ht.heights, hheight, himages]
    · have hid : e.key.turnId = id := by rw [hkey]; rfl
      have hversion := hok.version i e hslot
      have hnew : e.key.contentVersion = t.turnContentVersion id := by rw [hkey]; rfl
      rcases ht.changed id with hlt | ⟨-, hsame, hkeys⟩
      · rw [hid] at hversion
        omega
      · have hsome : some turn' = some turn := hget.symm.trans (hsame.trans hturn)
        cases hsome
        have hlines : SessionDisplayState.freshLines r vp t id turn' =
            s.freshLines r vp id turn' := by
          rw [SessionDisplayState.freshLines, SessionDisplayState.freshLines, hkeys]
        rw [hlines]
        exact hfresh (hkey.trans (hkeys turn'))

theorem Inv.touched (h : s.Inv r vp) (ht : Touched vp s t)
    (hdirty : t.markersDirty = s.markersDirty) (hstreaming : t.streamingDirty = true) :
    t.Inv r vp :=
  ⟨ht.cacheOk h.cacheOk, fun hclean => ht.settled h.cacheOk (h.settled (hdirty ▸ hclean)),
    fun _ hidle => absurd (hstreaming.symm.trans hidle) Bool.noConfusion⟩

theorem resolveStreamingTurnIndex_eq (s : SessionDisplayState Line) (requestId : ℕ) :
    ∃ index, s.resolveStreamingTurnIndex requestId = { s with streamingTurnIndex := index } := by
  rw [resolveStreamingTurnIndex]
  split
  · exact ⟨_, rfl⟩
  · exact ⟨_, rfl⟩

theorem collapseReasoning_eq (s : SessionDisplayState Line) (requestId : ℕ)
    (stream : OutputStream) : ∃ shown : Std.ExtTreeMap ℕ Bool,
      s.collapseReasoning requestId stream = { s with reasoningOverride := shown } ∧
        ∀ id : ℕ, s.view.requestToTurn[requestId]? ≠ some id →
          shown[id]? = s.reasoningOverride[id]? := by
  rw [collapseReasoning]
  split
  · exact ⟨_, rfl, fun _ _ => rfl⟩
  · rename_i id hroute
    split
    · refine ⟨_, rfl, fun other hother => ?_⟩
      rw [Std.ExtTreeMap.get_erase, if_neg]
      rintro rfl
      exact hother hroute
    · exact ⟨_, rfl, fun _ _ => rfl⟩

theorem touched_chunk {shown : Std.ExtTreeMap ℕ Bool} {requestId : ℕ}
    {f : SessionView → SessionView} (hf : ∀ view, SessionView.Chunked requestId view (f view))
    (hshown : ∀ id : ℕ, s.view.requestToTurn[requestId]? ≠ some id →
      shown[id]? = s.reasoningOverride[id]?)
    (hwrap : ∀ id, s.view.requestToTurn[requestId]? = some id →
      s.turnContentVersion id + 1 < 2 ^ 64) :
    Touched vp s (({ s with reasoningOverride := shown } : SessionDisplayState Line).chunk requestId
      f) := by
  obtain ⟨-, hturns⟩ := hf s.view
  rw [chunk]
  rcases hroute : s.view.requestToTurn[requestId]? with _ | turnId
  · obtain ⟨index, hindex⟩ := resolveStreamingTurnIndex_eq
      (modifyView f ({ s with reasoningOverride := shown } : SessionDisplayState Line)) requestId
    simp only [hindex]
    refine ⟨rfl, rfl, rfl, rfl, rfl, rfl, fun id => (hturns id).1, fun id => .inr ⟨rfl, ?_, ?_⟩⟩
    · exact (hturns id).2 (by rw [hroute]; exact (some_ne_none id).symm)
    · intro turn
      have hsame := hshown id (by rw [hroute]; exact (some_ne_none id).symm)
      simp only [cacheKey, effectiveReasoningExpanded, markStreamingChanged, modifyView, hsame]
      rfl
  · obtain ⟨index, hindex⟩ := resolveStreamingTurnIndex_eq
      ((modifyView f ({ s with reasoningOverride := shown } :
        SessionDisplayState Line)).bumpTurnVersion turnId) requestId
    simp only [hindex]
    refine ⟨rfl, rfl, rfl, rfl, rfl, rfl, fun id => (hturns id).1, fun id => ?_⟩
    have hversion (other : ℕ) : turnContentVersion (markStreamingChanged
        { (modifyView f ({ s with reasoningOverride := shown } :
          SessionDisplayState Line)).bumpTurnVersion turnId with streamingTurnIndex := index })
        other = if other = turnId then (s.turnContentVersion turnId + 1) % 2 ^ 64
          else s.turnContentVersion other :=
      turnContentVersion_bumpTurnVersion turnId other
    by_cases hid : id = turnId
    · subst hid
      left
      rw [hversion, if_pos rfl, Nat.mod_eq_of_lt (hwrap id hroute)]
      exact Nat.lt_succ_self _
    · right
      have hne : s.view.requestToTurn[requestId]? ≠ some id := by
        rw [hroute]
        exact fun heq => hid (some.inj heq).symm
      refine ⟨by rw [hversion, if_neg hid], (hturns id).2 hne, fun turn => ?_⟩
      have hkey := hversion id
      rw [if_neg hid] at hkey
      simp only [cacheKey, effectiveReasoningExpanded, hkey]
      rw [← hshown id hne]
      rfl

theorem markersDirty_chunk (s : SessionDisplayState Line) (requestId : ℕ)
    (f : SessionView → SessionView) : (s.chunk requestId f).markersDirty = s.markersDirty := by
  rw [SessionDisplayState.chunk]
  rcases hroute : s.view.requestToTurn[requestId]? with _ | turnId <;>
    simp only [resolveStreamingTurnIndex] <;> split <;> rfl

theorem Inv.chunk (h : s.Inv r vp) (shown : Std.ExtTreeMap ℕ Bool) {requestId : ℕ}
    {f : SessionView → SessionView} (hf : ∀ view, SessionView.Chunked requestId view (f view))
    (hshown : ∀ id : ℕ, s.view.requestToTurn[requestId]? ≠ some id →
      shown[id]? = s.reasoningOverride[id]?)
    (hwrap : ∀ id, s.view.requestToTurn[requestId]? = some id →
      s.turnContentVersion id + 1 < 2 ^ 64) :
    (({ s with reasoningOverride := shown } : SessionDisplayState Line).chunk requestId f).Inv r vp := by
  exact h.touched (touched_chunk hf hshown hwrap) (markersDirty_chunk _ requestId f) rfl

/-! ### Snapshots -/

theorem isSome_insert {m : TurnMap} {id id' : ℕ} {turn : Turn} (h : (m[id']?).isSome) :
    ((m.insert id turn)[id']?).isSome := by
  rw [Std.ExtTreeMap.get_insert]
  split
  · rfl
  · exact h

/-- A fold over entries keeps what is there, and leaves every entry in place, when each step does
as long as the snapshot's turns are there. -/
theorem isSome_foldl_entries (snapshot : TurnMap) {f : TurnMap → ℕ × Turn → TurnMap}
    (hkeep : ∀ merged p, ∀ id : ℕ, (merged[id]?).isSome → ((f merged p)[id]?).isSome)
    (hadd : ∀ merged, ∀ p : ℕ × Turn,
      (∀ id : ℕ, (snapshot[id]?).isSome → (merged[id]?).isSome) → ((f merged p)[p.1]?).isSome)
    {id : ℕ} (l : List (ℕ × Turn)) (merged : TurnMap)
    (hkept : ∀ id : ℕ, (snapshot[id]?).isSome → (merged[id]?).isSome)
    (hid : (merged[id]?).isSome ∨ ∃ turn, (id, turn) ∈ l) :
    ((l.foldl f merged)[id]?).isSome := by
  induction l generalizing merged with
  | nil =>
    obtain hmem | ⟨turn, hmem⟩ := hid
    · exact hmem
    · cases hmem
  | cons p l ih =>
    rw [foldl_cons]
    refine ih _ (fun id' hid' => hkeep _ _ _ (hkept id' hid')) ?_
    obtain hmem | ⟨turn, hmem⟩ := hid
    · exact .inl (hkeep _ _ _ hmem)
    · rcases mem_cons.1 hmem with rfl | hmem
      · exact .inl (hadd merged (id, turn) hkept)
      · exact .inr ⟨turn, hmem⟩

/-- No known turn is lost to a snapshot. -/
theorem isSome_mergeSnapshot {accumulated snapshot : TurnMap} {id : ℕ}
    (h : (accumulated[id]?).isSome) : ((mergeSnapshot accumulated snapshot)[id]?).isSome := by
  obtain ⟨turn, hturn⟩ := isSome_iff_exists.1 h
  refine isSome_foldl_entries snapshot (fun merged p id' hid' => ?_)
    (fun merged p hkept => ?_) _ _ (fun _ hid => hid)
    (.inr ⟨turn, Std.ExtTreeMap.mem_toList_iff_getElem?_eq_some.2 hturn⟩)
  · split
    · exact isSome_insert hid'
    · split
      · exact isSome_insert hid'
      · exact hid'
  · have hinsert : ((merged.insert p.1 p.2)[p.1]?).isSome := by
      rw [Std.ExtTreeMap.get_insert, if_pos rfl]
      rfl
    split
    · exact hinsert
    · rename_i known hknown
      split
      · exact hinsert
      · exact hkept p.1 (hknown ▸ rfl)

theorem turnContentVersion_foldl_bumpTurnVersion {ids : List ℕ} (hnodup : ids.Nodup) {id : ℕ}
    (hid : id ∈ ids) (s : SessionDisplayState Line) :
    (ids.foldl bumpTurnVersion s).turnContentVersion id =
      (s.turnContentVersion id + 1) % 2 ^ 64 := by
  have hrest (ids : List ℕ) (hid : id ∉ ids) (s : SessionDisplayState Line) :
      (ids.foldl bumpTurnVersion s).turnContentVersion id = s.turnContentVersion id := by
    induction ids generalizing s with
    | nil => rfl
    | cons other ids ih =>
      rw [mem_cons, not_or] at hid
      rw [foldl_cons, ih hid.2, turnContentVersion_bumpTurnVersion, if_neg hid.1]
  induction ids generalizing s with
  | nil => cases hid
  | cons other ids ih =>
    rw [nodup_cons] at hnodup
    rw [foldl_cons]
    rcases mem_cons.1 hid with rfl | hmem
    · rw [hrest ids hnodup.1, turnContentVersion_bumpTurnVersion, if_pos rfl]
    · rw [ih hnodup.2 hmem, turnContentVersion_bumpTurnVersion, if_neg]
      rintro rfl
      exact hnodup.1 hmem

theorem foldl_bumpTurnVersion_frame (ids : List ℕ) (s : SessionDisplayState Line) :
    (ids.foldl bumpTurnVersion s).visibleTurnIds = s.visibleTurnIds ∧
      (ids.foldl bumpTurnVersion s).renderCache = s.renderCache ∧
      (ids.foldl bumpTurnVersion s).view = s.view := by
  induction ids generalizing s with
  | nil => exact ⟨rfl, rfl, rfl⟩
  | cons id ids ih => exact ih (s.bumpTurnVersion id)

theorem CacheOk.handleSessionState (h : s.CacheOk r vp) {snapshot : TurnMap}
    (hwrap : ∀ id : ℕ, (s.view.turns[id]?).isSome → s.turnContentVersion id + 1 < 2 ^ 64) :
    (s.handleSessionState snapshot).CacheOk r vp := by
  rw [SessionDisplayState.handleSessionState]
  set merged := mergeSnapshot s.view.turns snapshot with hmerged
  set filtered : SessionDisplayState Line :=
    { s with
      view := { s.view with turns := merged }
      turnVersions := s.turnVersions.filter fun id _ => merged.contains id } with hfiltered
  change (s.view.turns.keys.foldl bumpTurnVersion filtered).CacheOk r vp
  obtain ⟨hvisible, hcache, hview⟩ := foldl_bumpTurnVersion_frame s.view.turns.keys filtered
  refine h.mono hvisible (fun i e hi => by rw [hcache] at hi; exact hi) (fun id hid => ?_)
    fun i e hi => .inl ?_
  · rw [hview]
    exact isSome_mergeSnapshot hid
  · rw [hcache] at hi
    have hknown := h.known _ (mem_of_getElem? (h.slot i e hi))
    have hcontains : merged.contains e.key.turnId = true := by
      rw [Std.ExtTreeMap.contains_eq_isSome_getElem?]
      exact isSome_mergeSnapshot hknown
    have hkept : filtered.turnContentVersion e.key.turnId = s.turnContentVersion e.key.turnId := by
      simp only [turnContentVersion, hfiltered, Std.ExtTreeMap.getElem?_filter']
      rcases s.turnVersions[e.key.turnId]? with _ | version
      · rfl
      · rw [filter_some, if_pos hcontains]
    have hkey : e.key.turnId ∈ s.view.turns.keys := by
      rw [Std.ExtTreeMap.mem_keys, ← Std.ExtTreeMap.isSome_getElem?_iff_mem]
      exact hknown
    rw [turnContentVersion_foldl_bumpTurnVersion Std.ExtTreeMap.nodup_keys hkey, hkept,
      Nat.mod_eq_of_lt (hwrap _ hknown)]
    exact Nat.lt_succ_self _

/-! ### Every event -/

theorem CacheOk.toggleReasoning (h : s.CacheOk r vp) (id : ℕ) :
    s.toggleReasoning id = s ∨
      ((s.toggleReasoning id).CacheOk r vp ∧ (s.toggleReasoning id).markersDirty = true) := by
  rw [SessionDisplayState.toggleReasoning]
  split
  · exact .inl rfl
  · obtain ⟨hnodup, hknown, hslot, hversion, hfresh⟩ := h
    refine .inr ⟨(CacheOk.markContentChanged (CacheOk.invalidateTurnCache ?_ id)).cacheOk, rfl⟩
    exact ⟨hnodup, hknown, hslot, hversion, hfresh⟩

theorem CacheOk.toggleToolResult (h : s.CacheOk r vp) (id : ℕ) (callId : String) :
    s.toggleToolResult id callId = s ∨
      ((s.toggleToolResult id callId).CacheOk r vp ∧
        (s.toggleToolResult id callId).markersDirty = true) := by
  rw [SessionDisplayState.toggleToolResult]
  split
  · exact .inl rfl
  · obtain ⟨hnodup, hknown, hslot, hversion, hfresh⟩ := h
    refine .inr ⟨(CacheOk.markContentChanged (CacheOk.invalidateTurnCache ?_ id)).cacheOk, rfl⟩
    exact ⟨hnodup, hknown, hslot, hversion, hfresh⟩

theorem CacheOk.endRequest (h : s.CacheOk r vp) (requestId : ℕ) :
    (s.modifyView (·.endRequest requestId)).CacheOk r vp := by
  have hturns : (s.modifyView (·.endRequest requestId)).view.turns = s.view.turns :=
    s.view.endRequest_turns requestId
  exact h.mono rfl (fun _ _ hi => hi) (fun id hid => by rw [hturns]; exact hid)
    fun _ _ _ => .inr ⟨rfl, by rw [hturns]⟩

/-- An empty cache is right. -/
theorem cacheOk_of_nil (hvisible : s.visibleTurnIds = []) (hcache : s.renderCache = []) :
    s.CacheOk r vp := by
  refine ⟨hvisible ▸ nodup_nil, fun id hid => ?_, fun i e hi => ?_, fun i e hi => ?_,
    fun i e _ hi => ?_⟩
  · rw [hvisible] at hid
    cases hid
  all_goals
    rw [hcache, List.getElem?_nil] at hi
    cases hi

theorem Inv.started (h : s.Inv r vp) (requestId turnId : ℕ) :
    (s.handle r vp (.started requestId turnId)).Inv r vp := by
  obtain ⟨⟨hnodup, hknown, hslot, hversion, hfresh⟩, hsettled, hcurrent⟩ := h
  refine ⟨⟨hnodup, hknown, hslot, hversion, hfresh⟩, fun hclean => ?_, hcurrent⟩
  obtain ⟨hvisible, hlengths, hsums, hmarkers, hrow⟩ := hsettled hclean
  exact ⟨hvisible, hlengths, hsums, hmarkers, hrow⟩

/-- The condition on a step: a pass takes the chunks of one turn only, the one it holds for the
streaming turn, which shows no image below a text that grows, or it lays out everything; the count
of the changes of a turn does not wrap around. -/
def Sound (r : Renderer Line) (vp : HistoryViewport) (ev : DisplayEvent)
    (s : SessionDisplayState Line) : Prop :=
  match ev with
  | .layout => s.streamingDirty = true → s.markersDirty = false → s.StreamingAlone r vp
  | .requestStream requestId _ _ | .toolCallStarted requestId _ _ _ _
  | .toolResultChunk requestId _ _ =>
    ∀ id, s.view.requestToTurn[requestId]? = some id → s.turnContentVersion id + 1 < 2 ^ 64
  | .sessionState _ =>
    ∀ id : ℕ, (s.view.turns[id]?).isSome → s.turnContentVersion id + 1 < 2 ^ 64
  | _ => True

/-- Every event keeps what holds between two passes. -/
theorem Inv.handle (h : s.Inv r vp) {ev : DisplayEvent} (hsound : Sound r vp ev s) :
    (s.handle r vp ev).Inv r vp := by
  rcases ev with ⟨id, turn⟩ | ids | turns | ⟨requestId, turnId⟩ | ⟨requestId, stream, data⟩ |
    ⟨requestId, callId, name, args, description⟩ | ⟨requestId, callId, data⟩ | turns | requestId |
    requestId | id | ⟨id, callId⟩ | _ | _
  · exact (h.cacheOk.replaceTurn id turn).markContentChanged
  · exact (h.cacheOk.foldl (fun _ id hs => hs.undoTurn id) ids).markContentChanged
  · exact (h.cacheOk.foldl (fun _ p hs => hs.replaceTurn p.1 p.2) turns).markContentChanged
  · exact h.started requestId turnId
  · obtain ⟨shown, hcollapsed, hshown⟩ := s.collapseReasoning_eq requestId stream
    simp only [SessionDisplayState.handle, hcollapsed]
    exact h.chunk shown (fun view => view.chunked_streamChunk requestId stream data) hshown hsound
  · exact h.chunk s.reasoningOverride
      (fun view => view.chunked_toolCallStarted requestId callId name args description)
      (fun _ _ => rfl) hsound
  · exact h.chunk s.reasoningOverride
      (fun view => view.chunked_toolResultChunk requestId callId data) (fun _ _ => rfl) hsound
  · exact (h.cacheOk.handleSessionState hsound).markContentChanged
  · exact (h.cacheOk.endRequest requestId).markContentChanged
  · exact (h.cacheOk.endRequest requestId).markContentChanged
  · rcases h.cacheOk.toggleReasoning id with hsame | ⟨hok, hmarked⟩
    · rw [SessionDisplayState.handle, hsame]
      exact h
    · exact hok.inv hmarked
  · rcases h.cacheOk.toggleToolResult id callId with hsame | ⟨hok, hmarked⟩
    · rw [SessionDisplayState.handle, hsame]
      exact h
    · exact hok.inv hmarked
  · exact (cacheOk_of_nil rfl rfl).inv rfl
  · exact (h.laidOut_layout hsound).inv

/-- A display on which nothing was laid out. -/
theorem inv_default : ({} : SessionDisplayState Line).Inv r vp :=
  (cacheOk_of_nil rfl rfl).inv rfl

def step (r : Renderer Line) (vp : HistoryViewport) (ev : DisplayEvent)
    (s : SessionDisplayState Line) : Option (SessionDisplayState Line) :=
  some (s.handle r vp ev)

/-- In a run whose steps are sound, every layout pass leaves what a rebuild from an empty cache
gives. -/
theorem asFromScratch_of_sound (r : Renderer Line) (vp : HistoryViewport)
    {evs : List DisplayEvent} {s : SessionDisplayState Line}
    (hsound : StepSystem.Along (step r vp) (Sound r vp) (evs ++ [.layout]) {})
    (hrun : StepSystem.run (step r vp) (evs ++ [.layout]) {} = some s) : s.AsFromScratch r vp := by
  obtain ⟨before, hbefore, hlast⟩ := StepSystem.run_concat_eq_some.1 hrun
  obtain ⟨halong, hlayout, -⟩ := (StepSystem.along_append hbefore).1 hsound
  have hinv : before.Inv r vp := by
    refine StepSystem.invariant_of_along (I := fun s => s.Inv r vp) (fun ev s s' hev hs hstep => ?_)
      inv_default halong hbefore
    cases hstep
    exact hs.handle hev
  cases hlast
  exact (hinv.laidOut_layout hlayout).asFromScratch

namespace Sample

/-- A rendering of the prompt and of the answer, a line each. -/
def lines : Renderer String where
  renderTurnLines turn _ _ _ _ :=
    { lines := [turn.userText.getD "", turn.assistantText.getD ""]
      reasoningHeaderIdx := none
      toolResultHeaderIdxs := [] }
  linesHeight lines _ := lines.length
  computeVisualOffsets lines _ := (List.range lines.length).map (· + 1)

def screen : HistoryViewport where
  width := 80
  height := 24

def turn : Turn := { createdAt := 0, userText := some "hi" }

/-- A chunk of an answer, after the prompt was laid out. -/
def chunks : List DisplayEvent :=
  [.turnAppended 1 turn, .layout, .started 7 1, .requestStream 7 .answer "a"]

def after (evs : List DisplayEvent) : SessionDisplayState String :=
  evs.foldl (fun s ev => s.handle lines screen ev) {}

theorem streamingAlone_chunks : (after chunks).StreamingAlone lines screen := by
  intro idx id turn hindex hvisible hget _
  have hzero : (after chunks).streamingTurnIndex = some 0 := by decide
  obtain rfl := some.inj (hzero.symm.trans hindex)
  have hone : (after chunks).visibleTurnIds[0]? = some 1 := by decide
  obtain rfl := some.inj (hone.symm.trans hvisible)
  refine ⟨fun i hi e id turn hslot => ?_, .inl ?_⟩
  · have hlength : (after chunks).renderCache.length = 1 := by decide
    have hlt := (List.getElem?_eq_some_iff.1 hslot).1
    omega
  · have himages : ((after chunks).view.turns[1]?).map Turn.displayedImages = some [] := by
      decide
    rw [hget] at himages
    exact some.inj himages

theorem asFromScratch_chunks : (after (chunks ++ [.layout])).AsFromScratch lines screen := by
  have hsound : StepSystem.Along (step lines screen) (Sound lines screen) (chunks ++ [.layout])
      {} := by
    refine ⟨trivial, fun hstreaming => ?_, trivial, fun id hroute => ?_,
      fun _ _ => streamingAlone_chunks, trivial⟩
    · exact absurd hstreaming (by decide)
    · have hone : (after (chunks.take 3)).view.requestToTurn[7]? = some 1 := by decide
      obtain rfl := some.inj (hone.symm.trans hroute)
      have hversion : (after (chunks.take 3)).turnContentVersion 1 = 1 := by decide
      change (after (chunks.take 3)).turnContentVersion 1 + 1 < 2 ^ 64
      rw [hversion]
      norm_num
  exact asFromScratch_of_sound lines screen hsound rfl

/-- Before the first chunk a snapshot brings an earlier turn, and a second chunk follows. -/
def lateSnapshot : List DisplayEvent :=
  [.turnAppended 1 turn, .layout, .started 7 1, .sessionState ((∅ : TurnMap).insert 0 turn),
    .requestStream 7 .answer "a", .layout, .requestStream 7 .answer "b", .layout]

/-- The second chunk is not shown: the place of the streaming turn is from before the snapshot. -/
theorem not_asFromScratch_lateSnapshot :
    StepSystem.run (step lines screen) lateSnapshot {} = some (after lateSnapshot) ∧
      ¬ (after lateSnapshot).AsFromScratch lines screen := by
  refine ⟨rfl, fun h => ?_⟩
  have hshown : (after lateSnapshot).renderCache.map (Option.map (·.rendered.lines)) =
      [some ["hi", ""], some ["hi", "a"]] := by decide
  have hfresh : ((after lateSnapshot).fromScratch lines screen).renderCache.map
      (Option.map (·.rendered.lines)) = [some ["hi", ""], some ["hi", "ab"]] := by decide
  have hlines := congrArg (List.map (Option.map RenderedTurn.lines)) h.lines
  simp only [List.map_map, Option.map_comp_map] at hlines
  exact absurd (hshown.symm.trans (hlines.trans hfresh)) (by decide)

end Sample

end SessionDisplayState

end Choreo
