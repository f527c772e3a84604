import Choreo.Session.Frame

/-!
# What a session thread reports

A session thread tells clients and the daemon when it was last changed and how many tokens it used.
Both are read off its configuration, and most commands change neither on the way: they are made of a
few actions, each of which reports the configuration as it is. The exceptions are the end of a
request, the sync of the token totals, and the events that others broadcast through the thread.
-/

namespace Choreo

/-- The token totals that an event carries. -/
def SessionEvent.usage : SessionEvent → Option TokenUsage
  | .sessionState _ _ _ _ _ _ tokenUsage _ _ _ _ _ => tokenUsage
  | .tokenUsageUpdate tokenUsage _ => some tokenUsage
  | .done _ tokenUsage _ => tokenUsage
  | _ => none

/-- The token totals that an output carries to a client or to the daemon. -/
def Output.usage : Output → Option TokenUsage
  | .broadcast event _ => event.usage
  | .direct _ event => event.usage
  | .updateMetadata metadata => some metadata.accumulatedUsage
  | .summary _ metadata => some metadata.accumulatedUsage
  | _ => none

/-- The token totals that a command carries. -/
def SessionCommand.usage : SessionCommand → Option TokenUsage
  | .syncAccumulatedUsage tokenUsage _ => some tokenUsage
  | .broadcast event => event.usage
  | .requestFinished _ snapshot => some snapshot.config.accumulatedUsage
  | _ => none

/-- The time of the last change that an output carries to a client or to the daemon. -/
def Output.modified : Output → Option ℤ
  | .broadcast (.sessionStatusChanged _ lastModified) _ => some lastModified
  | .direct _ (.sessionStatusChanged _ lastModified) => some lastModified
  | .updateMetadata metadata => some metadata.lastModified
  | .summary _ metadata => some metadata.lastModified
  | _ => none

/-- The output carries the time and the totals of the configuration, if any. -/
structure Output.Reports (config : SessionConfig) (o : Output) : Prop where
  modified : ∀ m ∈ o.modified, m = config.lastModified
  usage : ∀ u ∈ o.usage, u = config.accumulatedUsage

/-- An output that carries neither. -/
theorem Output.Reports.plain {config : SessionConfig} {o : Output} (hmodified : o.modified = none)
    (husage : o.usage = none) : o.Reports config where
  modified m hm := absurd (hmodified.symm.trans hm) (Option.some_ne_none m).symm
  usage u hu := absurd (husage.symm.trans hu) (Option.some_ne_none u).symm

/-- Commands that neither end a request, nor take totals over, nor broadcast for others. -/
def SessionCommand.isOwn : SessionCommand → Bool
  | .requestFinished .. | .syncAccumulatedUsage .. | .broadcast _ => false
  | _ => true

namespace Loop

/-- The actions of a session thread: a change that concerns neither the configuration nor the record,
a change of the configuration that keeps the time and the totals, a report, a write of the record,
and the update of the metadata after a change. -/
inductive Act (env : CommandEnv) (l : Loop) : Loop → Prop
  | inner {l' : Loop} (hconfig : l'.state.config = l.state.config)
      (hrecord : l'.store.record = l.store.record) (hlog : l'.log = l.log) : Act env l l'
  | configure {f : SessionConfig → SessionConfig}
      (hmodified : (f l.state.config).lastModified = l.state.config.lastModified)
      (husage : (f l.state.config).accumulatedUsage = l.state.config.accumulatedUsage) :
      Act env l (l.modifyConfig f)
  | send {output : Output} (h : output.Reports l.state.config) : Act env l (l.send output)
  | broadcast {event : SessionEvent}
      (h : ∀ recipients, (Output.broadcast event recipients).Reports l.state.config) :
      Act env l (l.broadcast env event)
  | writeRecord : Act env l (l.writeRecord env)
  | persist : Act env l (l.persistSessionMetadata env)

theorem record_writeTurn {env : CommandEnv} (turnId : ℕ) (turn : Turn) (l : Loop) :
    (l.writeTurn env turnId turn).store.record = l.store.record := by
  simp only [Loop.writeTurn, Store.writeTurnRetry]
  by_cases hok : env.turnWrite turnId = true
  · rw [if_pos hok]
    rfl
  · rw [if_neg hok]

theorem record_writeRecord {env : CommandEnv} (hwrite : env.recordWrite = true) (l : Loop) :
    (l.writeRecord env).store.record = some l.state.toRecord := by
  simp only [writeRecord, Store.writeSessionRetry, hwrite, if_true]

/-- Any number of actions. -/
def Acts (env : CommandEnv) : Loop → Loop → Prop := Relation.ReflTransGen (Act env)

namespace Acts

variable {env : CommandEnv} {l l' l'' : Loop}

theorem refl (l : Loop) : Acts env l l := Relation.ReflTransGen.refl

theorem single (h : Act env l l') : Acts env l l' := Relation.ReflTransGen.single h

theorem trans (h : Acts env l l') (h' : Acts env l' l'') : Acts env l l'' :=
  Relation.ReflTransGen.trans h h'

theorem inner (hconfig : l'.state.config = l.state.config)
    (hrecord : l'.store.record = l.store.record) (hlog : l'.log = l.log) : Acts env l l' :=
  .single (.inner hconfig hrecord hlog)

theorem configure (l : Loop) {f : SessionConfig → SessionConfig}
    (hmodified : (f l.state.config).lastModified = l.state.config.lastModified)
    (husage : (f l.state.config).accumulatedUsage = l.state.config.accumulatedUsage) :
    Acts env l (l.modifyConfig f) :=
  .single (.configure hmodified husage)

theorem send (l : Loop) {output : Output} (hmodified : output.modified = none)
    (husage : output.usage = none) : Acts env l (l.send output) :=
  .single (.send (.plain hmodified husage))

theorem broadcast (l : Loop) {event : SessionEvent}
    (hmodified : ∀ recipients, (Output.broadcast event recipients).modified = none)
    (husage : event.usage = none) : Acts env l (l.broadcast env event) :=
  .single (.broadcast fun recipients => .plain (hmodified recipients) husage)

theorem writeRecord (l : Loop) : Acts env l (l.writeRecord env) := .single .writeRecord

theorem persist (l : Loop) : Acts env l (l.persistSessionMetadata env) := .single .persist

theorem foldl {α : Type*} (body : Loop → α → Loop) (h : ∀ l a, Acts env l (body l a))
    (as : List α) (l : Loop) : Acts env l (as.foldl body l) := by
  induction as generalizing l with
  | nil => exact .refl _
  | cons a as ih => exact (h l a).trans (ih _)

theorem writeTurn (turnId : ℕ) (turn : Turn) (l : Loop) :
    Acts env l (l.writeTurn env turnId turn) :=
  .inner rfl (record_writeTurn turnId turn l) rfl

theorem announceContextWindow (cw : Option UInt32) (l : Loop) :
    Acts env l (l.announceContextWindow env cw) := by
  cases cw with
  | none => exact .refl _
  | some cw => exact .broadcast l (fun _ => rfl) rfl

theorem resolveContextWindowIfMissing (l : Loop) :
    Acts env l (l.resolveContextWindowIfMissing env) := by
  unfold Loop.resolveContextWindowIfMissing
  split
  · split
    · exact (configure l rfl rfl).trans (.broadcast _ (fun _ => rfl) rfl)
    · exact .refl _
  · exact .refl _

theorem inputProvider (h : l' = l ∨ ∃ provider, l.inputProvider env = .ok (provider, l')) :
    Acts env l l' := by
  obtain rfl | ⟨provider, h⟩ := h
  · exact .refl _
  · unfold Loop.inputProvider at h
    split at h
    · cases h
      exact .refl _
    · split at h
      · cases h
        refine Acts.trans ?_ (resolveContextWindowIfMissing _)
        exact .inner rfl rfl rfl
      · cases h
    · cases h

theorem failRequest (requestId : ℕ) (error : String) (l : Loop) :
    Acts env l (l.failRequest env requestId error) :=
  (broadcast l (fun _ => rfl) rfl).trans (.broadcast _ (fun _ => rfl) rfl)

theorem startRequest (requestId : ℕ) (client : InferenceProvider) (model : String)
    (childReply : Option ℕ) (userText : Option String) (l : Loop) :
    Acts env l (l.startRequest env requestId client model childReply userText) :=
  (broadcast l (fun _ => rfl) rfl).trans (.inner rfl rfl rfl)

theorem cancelRequest (requestId : ℕ) (l : Loop) : Acts env l (l.cancelRequest env requestId) := by
  unfold Loop.cancelRequest
  split
  · exact .refl _
  · refine Acts.trans ?_ (.broadcast _ (fun _ => rfl) rfl)
    exact .inner rfl rfl rfl

theorem dropResponseChain (l : Loop) : Acts env l (l.dropResponseChain env) := by
  unfold Loop.dropResponseChain
  split_ifs
  · exact (configure l rfl rfl).trans (.writeRecord _)
  · exact .refl _

end Acts

/-! ### The handlers -/

section Handlers

variable {env : CommandEnv}

theorem handleRunInput_acts (requestId : ℕ) (input : String) (l : Loop) :
    Acts env l (l.handleRunInput env requestId input).1 := by
  rcases l.handleRunInput_cases env requestId input with
    ⟨l₁, error, hl₁, heq⟩ | ⟨l₁, provider, model, hprovider, -, -, -, heq⟩
  · rw [heq]
    exact (Acts.inputProvider hl₁).trans (.failRequest requestId error l₁)
  · rw [heq]
    exact (Acts.inputProvider (Or.inr ⟨provider, hprovider⟩)).trans (.startRequest ..)

theorem handleRunChildInput_acts (requestId : ℕ) (userText : Option String) (reply : ℕ)
    (l : Loop) : Acts env l (l.handleRunChildInput env requestId userText reply).1 := by
  rcases l.handleRunChildInput_cases env requestId userText reply with
    ⟨error, heq⟩ | ⟨provider, -, -, -, heq⟩
  · rw [heq]
    exact .send l rfl rfl
  · rw [heq]
    exact .startRequest ..

theorem handleUndo_acts (l : Loop) : Acts env l (l.handleUndo env).1 := by
  unfold handleUndo
  cases hundo : l.state.undoTurns with
  | none => exact .refl _
  | some p =>
    have hstate : Acts env l ({ l with state := p.2 } : Loop) := by
      obtain ⟨target, -, rfl⟩ := Option.map_eq_some_iff.1 hundo
      exact .inner rfl rfl rfl
    refine (hstate.trans (.dropResponseChain _)).trans
      (Acts.trans ?_ (.broadcast _ (fun _ => rfl) rfl))
    refine .foldl _ (fun l id => ?_) _ _
    split
    · exact .writeTurn _ _ l
    · exact .refl _

theorem handleRedo_acts (l : Loop) : Acts env l (l.handleRedo env).1 := by
  unfold handleRedo
  cases hredo : l.state.redoTurns with
  | none => exact .refl _
  | some p =>
    have hstate : Acts env l ({ l with state := p.2 } : Loop) := by
      obtain ⟨ids, -, rfl⟩ := Option.map_eq_some_iff.1 hredo
      exact .inner rfl rfl rfl
    exact (hstate.trans (.foldl _ (fun l entry => .writeTurn _ _ l) _ _)).trans
      (.broadcast _ (fun _ => rfl) rfl)

theorem handleSetModel_acts (model : String) (l : Loop) :
    Acts env l (l.handleSetModel env model).1 := by
  unfold handleSetModel
  split
  · exact .broadcast l (fun _ => rfl) rfl
  · have hselect : Acts env l (l.selectModel env model) :=
      (Acts.configure l rfl rfl).trans (.announceContextWindow _ _)
    refine hselect.trans (Acts.trans ?_
      ((Acts.broadcast _ (fun _ => rfl) rfl).trans (.persist _)))
    unfold resetReasoningEffort
    split
    · split_ifs
      · exact (Acts.configure _ rfl rfl).trans (.broadcast _ (fun _ => rfl) rfl)
      · exact .refl _
    · exact .refl _

theorem handleSetAccount_acts (name : String) (l : Loop) :
    Acts env l (l.handleSetAccount env name).1 := by
  unfold handleSetAccount
  dsimp only
  refine Acts.trans ?_ ((Acts.configure _ rfl rfl).trans
    ((Acts.broadcast _ (fun _ => rfl) rfl).trans (.persist _)))
  split
  · exact .refl _
  · unfold useProvider
    dsimp only
    split
    · exact .inner rfl rfl rfl
    · exact ((Acts.configure l rfl rfl).trans (.announceContextWindow _ _)).trans
        (.inner rfl rfl rfl)

theorem sessionStateMessage_reports (l : Loop) (recipients : List ℕ) :
    (Output.broadcast (l.sessionStateMessage env) recipients).Reports l.state.config where
  modified := by rintro m ⟨⟩
  usage u hu := (Option.some.inj hu).symm

theorem changeToolGroups_acts
    (apply : Std.ExtTreeSet String → List String → Std.ExtTreeSet String × String)
    (groups : List String) (reply : ℕ) (l : Loop) :
    Acts env l (l.changeToolGroups env apply groups reply).1 := by
  unfold changeToolGroups
  split
  · exact .send l rfl rfl
  · have hconfig : Acts env l (l.modifyConfig fun config =>
        { config with activeToolGroups := (apply config.activeToolGroups groups).1 }) :=
      .configure l rfl rfl
    refine hconfig.trans (Acts.trans ?_ ((Acts.persist _).trans (.send _ rfl rfl)))
    exact .single (.broadcast (sessionStateMessage_reports _))

theorem handleSetReasoningEffort_acts (effort : String) (l : Loop) :
    Acts env l (l.handleSetReasoningEffort env effort).1 := by
  unfold handleSetReasoningEffort
  split_ifs
  · exact .broadcast l (fun _ => rfl) rfl
  · exact (Acts.configure l rfl rfl).trans (.broadcast _ (fun _ => rfl) rfl)
  · exact .broadcast l (fun _ => rfl) rfl

theorem handleStatusChanged_acts (status : SessionStatus) (l : Loop) :
    Acts env l (l.handleStatusChanged env status).1 := by
  have hconfig : Acts env l (l.modifyConfig fun config => { config with status := status }) :=
    .configure l rfl rfl
  refine hconfig.trans (Acts.trans ?_ (.send _ rfl rfl))
  refine .single (.broadcast fun recipients => ⟨fun m hm => ?_, by rintro u ⟨⟩⟩)
  exact (Option.some.inj hm).symm

theorem handleAttach_acts (clientId : ℕ) (l : Loop) :
    Acts env l (l.handleAttach env clientId).1 := by
  have hinsert : Acts env l
      { l with state := { l.state with subscribers := l.state.subscribers.insert clientId } } :=
    .inner rfl rfl rfl
  refine (hinsert.trans (.send _ rfl rfl)).trans (Acts.trans
    (.foldl _ (fun l entry => .send l rfl rfl) _ _) (.single (.send ⟨?_, fun u hu => ?_⟩)))
  · rintro m ⟨⟩
  · exact (Option.some.inj hu).symm

variable (env : CommandEnv)

theorem mergeTurn_frame (l : Loop) (entry : ℕ × Turn) :
    (l.mergeTurn env entry).state.config = l.state.config ∧
      (l.mergeTurn env entry).store.record = l.store.record := by
  unfold Loop.mergeTurn
  dsimp only
  split
  · exact ⟨rfl, record_writeTurn _ _ _⟩
  · split_ifs
    · exact ⟨rfl, rfl⟩
    · exact ⟨rfl, record_writeTurn _ _ _⟩
    · exact ⟨rfl, rfl⟩

theorem foldl_mergeTurn_frame (entries : List (ℕ × Turn)) (l : Loop) :
    (entries.foldl (mergeTurn env) l).state.config = l.state.config ∧
      (entries.foldl (mergeTurn env) l).store.record = l.store.record := by
  induction entries generalizing l with
  | nil => exact ⟨rfl, rfl⟩
  | cons entry entries ih =>
    obtain ⟨hconfig, hrecord⟩ := mergeTurn_frame env l entry
    obtain ⟨hconfig', hrecord'⟩ := ih (l.mergeTurn env entry)
    exact ⟨hconfig'.trans hconfig, hrecord'.trans hrecord⟩

/-- The end of a request moves the time as every change does, takes the totals of the snapshot over,
writes both to the record and updates the index with them; the status broadcast carries the clock. -/
theorem handleRequestFinished_reports (requestId : ℕ)
    (snapshot : SessionSnapshot) (l : Loop) :
    (l.handleRequestFinished env requestId snapshot).1.state.config.lastModified =
        max l.state.config.lastModified env.now ∧
      (l.handleRequestFinished env requestId snapshot).1.state.config.accumulatedUsage =
        snapshot.config.accumulatedUsage ∧
      (env.recordWrite = true → ∃ record,
        (l.handleRequestFinished env requestId snapshot).1.store.record = some record ∧
        record.lastModified = max l.state.config.lastModified env.now) ∧
      ∃ metadata recipients,
        metadata.lastModified = max l.state.config.lastModified env.now ∧
        metadata.accumulatedUsage = snapshot.config.accumulatedUsage ∧
        (l.handleRequestFinished env requestId snapshot).1.log =
          .broadcastSessionStatus .inactive ::
            .broadcast (.sessionStatusChanged .inactive env.now) recipients ::
            .updateMetadata metadata :: l.log := by
  unfold handleRequestFinished
  dsimp only
  set written : Loop := writeRecord env _ with hwritten
  set start : Loop := { written with state := _ } with hstart
  set merged : Loop := List.foldl (mergeTurn env) start _ with hmerged
  obtain ⟨hconfig, hrecord⟩ :=
    foldl_mergeTurn_frame env (l.dropStaleChain snapshot).turns.toList start
  have hlog : merged.log = l.log := by
    rw [hmerged, log_foldl _ (log_mergeTurn env)]
    rfl
  have husage : merged.state.config.accumulatedUsage = snapshot.config.accumulatedUsage := by
    rw [hmerged, hconfig]
    change (l.dropStaleChain snapshot).config.accumulatedUsage = _
    unfold dropStaleChain
    split_ifs <;> rfl
  have htime : merged.state.config.lastModified = max l.state.config.lastModified env.now := by
    rw [hmerged, hconfig]
    rfl
  refine ⟨htime, husage, fun hwrite => ?_, ?_⟩
  · exact ⟨_, hrecord.trans (record_writeRecord hwrite _), rfl⟩
  · rw [← hlog]
    exact ⟨_, _, htime, husage, rfl⟩

/-- Commands are made of actions, except for the end of a request, the sync of the totals and the
broadcasts of others. -/
theorem processCommand_acts {command : SessionCommand}
    (h : command.isOwn = true) (l : Loop) : Acts env l (l.processCommand env command).1 := by
  cases command with
  | runInput requestId input => exact handleRunInput_acts requestId input l
  | runChildInput requestId userText reply => exact handleRunChildInput_acts requestId userText reply l
  | cancel requestId => exact .foldl _ (fun l id => .cancelRequest id l) _ l
  | setModel model => exact handleSetModel_acts model l
  | statusChanged status => exact handleStatusChanged_acts status l
  | attach clientId => exact handleAttach_acts clientId l
  | detach clientId =>
    refine Acts.trans ?_ (.send _ rfl rfl)
    exact .inner rfl rfl rfl
  | removeSubscriber clientId => exact .inner rfl rfl rfl
  | getSummary reply =>
    refine .single (.send ⟨fun m hm => ?_, fun u hu => ?_⟩)
    · exact (Option.some.inj hm).symm
    · exact (Option.some.inj hu).symm
  | requestFinished requestId snapshot => cases h
  | broadcast event | syncAccumulatedUsage tokenUsage lastPromptTokens => cases h
  | setTitle title =>
    unfold processCommand handleSetTitle
    dsimp only
    split_ifs
    · exact .refl _
    · exact (Acts.configure l rfl rfl).trans
        ((Acts.broadcast _ (fun _ => rfl) rfl).trans (.persist _))
  | setWorkingDir path reply =>
    have hconfig : Acts env l (l.modifyConfig fun config =>
        { config with workingDir := some path }) := .configure l rfl rfl
    have hskills : Acts env l
        { l.modifyConfig (fun config => { config with workingDir := some path }) with
          state := { (l.modifyConfig fun config =>
            { config with workingDir := some path }).state with discoveredSkills := none } } :=
      hconfig.trans (.inner rfl rfl rfl)
    exact hskills.trans ((Acts.broadcast _ (fun _ => rfl) rfl).trans
      ((Acts.persist _).trans (.send _ rfl rfl)))
  | loadTools groups reply =>
    exact changeToolGroups_acts (applyLoadTools env.renderList) groups reply l
  | unloadTools groups reply =>
    exact changeToolGroups_acts (applyUnloadTools env.renderList) groups reply l
  | setAccount name => exact handleSetAccount_acts name l
  | setReasoningEffort effort => exact handleSetReasoningEffort_acts effort l
  | getReasoningEffort reply => exact .send l rfl rfl
  | undo => exact handleUndo_acts l
  | redo => exact handleRedo_acts l
  | shutdown =>
    refine Acts.trans ?_ (.foldl _ (fun l id => .cancelRequest id l) _ _)
    exact .inner rfl rfl rfl

end Handlers

end Loop

end Choreo
