import Choreo.Agent.ToolResults
import Choreo.Session.System

/-!
# The worker's mirror of configuration changes

The tools that change the session's configuration send a command to the session thread, which holds
the authoritative configuration; after the tools of a response the worker repeats the changes on its
own copy, from the arguments and outputs of the calls that did not fail
(`execute_set_working_dir`, `execute_load_tools` and `execute_unload_tools` of
`choreo-daemon/src/tools`, and phase 3 of `run_agent_loop` in `choreo-daemon/src/requests.rs`).

The two copies agree as long as no call is given up whose command the session thread still applies,
and no directory is set whose path is not text: a given-up call counts as failed, and the path comes
back from the tool as text.
-/

namespace Choreo

open List Option

variable (files : ToolFiles)

/-- The command that a call of a tool for tool groups sends: unknown groups and an empty list are
refused. `known` is what the registry has, if it is still there. -/
def groupsCommand (known : Option (List String)) (call : ChatToolCall)
    (command : List String → SessionCommand) : Option SessionCommand :=
  match files.parseGroups call.argumentsJson with
  | none => none
  | some groups =>
    if (known.bind (unknownGroupNames groups)).isSome then none
    else if groups = [] then none
    else some (command groups)

/-- The command that the tool of a call sends to the session thread; `none` when the tool fails
before it sends one. -/
def configCommand (known : Option (List String))
    (workingDir : Option PathBuf) (reply : ℕ) (call : ChatToolCall) : Option SessionCommand :=
  if call.name = "load_tools" then groupsCommand files known call (.loadTools · reply)
  else if call.name = "unload_tools" then groupsCommand files known call (.unloadTools · reply)
  else if call.name = "set_working_dir" then
    (files.resolveWorkingDir call.argumentsJson workingDir).map (.setWorkingDir · reply)
  else none

/-- The output of the tool whose command got an answer; a directory comes back as text. -/
def configOutput (description : String) (command : SessionCommand) :
    Except String String → ToolOutput
  | .error message => failedOutput message description
  | .ok summary =>
    match command with
    | .setWorkingDir path _ =>
      { content := "Working directory changed to '" ++ path.display ++ "'."
        invocationDescription := description
        resultPath := some path.display }
    | _ => { content := summary, invocationDescription := description }

def recordedChange (call : ChatToolCall) (output : ToolOutput)
    (baseWorkingDir : Option PathBuf) : List PendingConfigChange :=
  if output.isError then []
  else (pendingConfigChange files call output baseWorkingDir).toList

/-- The answer of the session thread to the command that it handled last. -/
def Loop.answerTo (reply : ℕ) (l : Loop) : Except String String :=
  match l.log with
  | .applied r result :: _ =>
    if r = reply then result else .error "daemon did not respond: receiving on a closed channel"
  | _ => .error "daemon did not respond: receiving on a closed channel"

/-- The session thread and the worker during the tool calls of one response: `worker` is the copy
before the changes are repeated, and `late` are the commands of given-up calls that the session
thread did not handle yet. -/
structure ConfigMirror where
  loop : Loop
  worker : SessionState
  changes : List PendingConfigChange := []
  late : List SessionCommand := []
  replies : ℕ := 0

/-- What happens to a call or to a late command: the worker records the output of a tool that got
its answer (`active` when the session was still served), or gives the call up on a cancel, a
deadline or a dead tool; the session thread handles a late command, or never gets it. -/
inductive ConfigLabel
  | answered (env : CommandEnv) (known : Option (List String)) (active : Bool)
      (description : String) (call : ChatToolCall)
  | abandoned (known : Option (List String)) (message : String) (call : ChatToolCall)
  | processed (env : CommandEnv) (index : ℕ)
  | lost (index : ℕ)

namespace ConfigMirror

/-- The state at the start of the tool calls of a response. -/
def start (loop : Loop) (worker : SessionState) : ConfigMirror where
  loop := loop
  worker := worker

variable (files : ToolFiles)

/-- Keeps the change of a recorded output; every call of the response is resolved against the
working directory at its start. -/
def record (call : ChatToolCall) (output : ToolOutput) (m : ConfigMirror) :
    ConfigMirror :=
  { m with
    changes := m.changes ++ recordedChange files call output m.worker.config.workingDir
    replies := m.replies + 1 }

def commandOf (known : Option (List String)) (call : ChatToolCall)
    (m : ConfigMirror) : Option SessionCommand :=
  configCommand files known m.worker.config.workingDir m.replies call

def step : ConfigLabel → ConfigMirror → Option ConfigMirror
  | .answered env known active description call, m =>
    match m.commandOf files known call with
    | none => some (m.record files call (failedOutput "invalid arguments" description))
    | some command =>
      if active then
        let loop := (m.loop.processCommand env command).1
        some (record files call (configOutput description command (loop.answerTo m.replies))
          { m with loop := loop })
      else some (m.record files call (failedOutput "session is not active" description))
  | .abandoned known message call, m =>
    some (record files call (failedOutput message "")
      { m with late := m.late ++ (m.commandOf files known call).toList })
  | .processed env i, m =>
    (m.late[i]?).map fun command =>
      { m with loop := (m.loop.processCommand env command).1, late := m.late.eraseIdx i }
  | .lost i, m => (m.late[i]?).map fun _ => { m with late := m.late.eraseIdx i }

/-- The worker's copy after the changes were repeated. -/
def mirrored (env : ToolEnv) (m : ConfigMirror) : SessionState :=
  m.changes.foldl (applyPendingConfigChange env) m.worker

def SameConfig (c c' : SessionConfig) : Prop :=
  c.activeToolGroups = c'.activeToolGroups ∧ c.workingDir = c'.workingDir

/-- Once no command is on its way, the mirrored configuration is the authoritative one. -/
def Agrees (env : ToolEnv) (m : ConfigMirror) : Prop :=
  m.late = [] → SameConfig (m.mirrored env).config m.loop.state.config

def Idle (env : CommandEnv) (config : SessionConfig) : SessionCommand → Prop
  | .loadTools groups _ =>
    (unknownGroupNames groups env.knownGroupNames).isSome = true ∨
      ∀ g ∈ groups, g ∈ config.activeToolGroups
  | .unloadTools groups _ =>
    (unknownGroupNames groups env.knownGroupNames).isSome = true ∨
      ∀ g ∈ groups, g = "core" ∨ g ∉ config.activeToolGroups
  | .setWorkingDir path _ => config.workingDir = some path
  | _ => False

/-- A directory is only set to a path that is text, and the late command of a given-up call only
changes something that is so already. -/
def Faithful : ConfigLabel → ConfigMirror → Prop
  | .answered _ known active _ call, m =>
    ∀ path reply, m.commandOf files known call = some (.setWorkingDir path reply) →
      active = true → ∃ text, path = .utf8 text
  | .processed env i, m => ∀ command ∈ m.late[i]?, Idle env m.loop.state.config command
  | .abandoned _ _ _, _ => True
  | .lost _, _ => True

/-! ### What the session thread does with a command -/

section Handlers

variable (env : CommandEnv) (l : Loop)

theorem processCommand_setWorkingDir (path : PathBuf) (reply : ℕ) :
    (l.processCommand env (.setWorkingDir path reply)).1.state.config.activeToolGroups =
        l.state.config.activeToolGroups ∧
      (l.processCommand env (.setWorkingDir path reply)).1.state.config.workingDir = some path ∧
      (l.processCommand env (.setWorkingDir path reply)).1.answerTo reply = .ok path.display := by
  refine ⟨rfl, rfl, ?_⟩
  simp [Loop.processCommand, Loop.handleSetWorkingDir, Loop.answerTo, Loop.send]

theorem processCommand_loadTools (groups : List String) (reply : ℕ) :
    l.processCommand env (.loadTools groups reply) =
      l.changeToolGroups env (applyLoadTools env.renderList) groups reply := rfl

theorem processCommand_unloadTools (groups : List String) (reply : ℕ) :
    l.processCommand env (.unloadTools groups reply) =
      l.changeToolGroups env (applyUnloadTools env.renderList) groups reply := rfl

variable (apply : Std.ExtTreeSet String → List String → Std.ExtTreeSet String × String)

theorem changeToolGroups_of_unknown
    (reply : ℕ) {groups unknown : List String}
    (h : unknownGroupNames groups env.knownGroupNames = some unknown) :
    SameConfig (l.changeToolGroups env apply groups reply).1.state.config l.state.config ∧
      (l.changeToolGroups env apply groups reply).1.answerTo reply =
        .error ("Unknown tool group(s): " ++ ", ".intercalate unknown) := by
  simp only [Loop.changeToolGroups, h, Loop.answerTo, Loop.send, if_true, and_true]
  exact ⟨rfl, rfl⟩

theorem changeToolGroups_of_known
    (reply : ℕ) {groups : List String}
    (h : unknownGroupNames groups env.knownGroupNames = none) :
    (l.changeToolGroups env apply groups reply).1.state.config.activeToolGroups =
        (apply l.state.config.activeToolGroups groups).1 ∧
      (l.changeToolGroups env apply groups reply).1.state.config.workingDir =
        l.state.config.workingDir ∧
      (l.changeToolGroups env apply groups reply).1.answerTo reply =
        .ok (apply l.state.config.activeToolGroups groups).2 := by
  simp only [Loop.changeToolGroups, h, Loop.answerTo, Loop.send, if_true, and_true]
  exact ⟨rfl, rfl⟩

end Handlers

variable (renderList : List String → String)

/-- Loading groups that are active changes nothing. -/
theorem applyLoadTools_of_active
    {active : Std.ExtTreeSet String} {groups : List String} (h : ∀ g ∈ groups, g ∈ active) :
    (applyLoadTools renderList active groups).1 = active := by
  have hfold : ∀ loaded, (groups.foldl
      (fun (acc : Std.ExtTreeSet String × List String) g =>
        if acc.1.contains g then acc else (acc.1.insert g, acc.2 ++ [g])) (active, loaded)).1 =
      active := by
    intro loaded
    induction groups with
    | nil => rfl
    | cons g groups ih =>
      have hg : active.contains g = true := Std.ExtTreeSet.mem_iff_contains.1
        (h g mem_cons_self)
      rw [foldl_cons, if_pos hg]
      exact ih fun g' hg' => h g' (mem_cons_of_mem _ hg')
  exact hfold []

/-- Unloading groups that are not active, or that cannot be unloaded, changes nothing. -/
theorem applyUnloadTools_of_inactive
    {active : Std.ExtTreeSet String} {groups : List String}
    (h : ∀ g ∈ groups, g = "core" ∨ g ∉ active) :
    (applyUnloadTools renderList active groups).1 = active := by
  have hfold : ∀ rest, (groups.foldl
      (fun (acc : Std.ExtTreeSet String × List String × Bool) g =>
        if g = "core" then (acc.1, acc.2.1, true)
        else if acc.1.contains g then (acc.1.erase g, acc.2.1 ++ [g], acc.2.2)
        else acc) (active, rest)).1 = active := by
    induction groups with
    | nil => exact fun _ => rfl
    | cons g groups ih =>
      intro rest
      have ih' := ih fun g' hg' => h g' (mem_cons_of_mem _ hg')
      rw [foldl_cons]
      by_cases hcore : g = "core"
      · rw [if_pos hcore]
        exact ih' _
      · have hg : ¬active.contains g = true := fun hc =>
          (h g mem_cons_self).elim hcore fun hn => hn (Std.ExtTreeSet.mem_iff_contains.2 hc)
        rw [if_neg hcore, if_neg hg]
        exact ih' _
  exact hfold _

/-- An idle command leaves the configuration as it is. -/
theorem same_of_idle {env : CommandEnv} {l : Loop} {command : SessionCommand}
    (h : Idle env l.state.config command) :
    SameConfig (l.processCommand env command).1.state.config l.state.config := by
  cases command with
  | loadTools groups reply =>
    rw [processCommand_loadTools]
    rcases hknown : unknownGroupNames groups env.knownGroupNames with _ | unknown
    · have hactive : ∀ g ∈ groups, g ∈ l.state.config.activeToolGroups := by
        rcases h with h | h
        · rw [hknown] at h
          cases h
        · exact h
      obtain ⟨hgroups, hdir, -⟩ := changeToolGroups_of_known env l (applyLoadTools env.renderList)
        reply hknown
      rw [applyLoadTools_of_active env.renderList hactive] at hgroups
      exact ⟨hgroups, hdir⟩
    · exact (changeToolGroups_of_unknown env l _ reply hknown).1
  | unloadTools groups reply =>
    rw [processCommand_unloadTools]
    rcases hknown : unknownGroupNames groups env.knownGroupNames with _ | unknown
    · have hinactive : ∀ g ∈ groups, g = "core" ∨ g ∉ l.state.config.activeToolGroups := by
        rcases h with h | h
        · rw [hknown] at h
          cases h
        · exact h
      obtain ⟨hgroups, hdir, -⟩ := changeToolGroups_of_known env l (applyUnloadTools env.renderList)
        reply hknown
      rw [applyUnloadTools_of_inactive env.renderList hinactive] at hgroups
      exact ⟨hgroups, hdir⟩
    · exact (changeToolGroups_of_unknown env l _ reply hknown).1
  | setWorkingDir path reply =>
    obtain ⟨hgroups, hdir, -⟩ := processCommand_setWorkingDir env l path reply
    exact ⟨hgroups, hdir.trans (Eq.symm h)⟩
  | _ => exact h.elim

/-! ### The mirror of one call -/

section Calls

variable {files : ToolFiles} {known : Option (List String)} {call : ChatToolCall}
  {m : ConfigMirror} {command : SessionCommand}

/-- A command of a call comes from its arguments. -/
theorem commandOf_cases (h : m.commandOf files known call = some command) :
    (∃ groups, call.name = "load_tools" ∧ files.parseGroups call.argumentsJson = some groups ∧
        command = .loadTools groups m.replies) ∨
      (∃ groups, call.name = "unload_tools" ∧
        files.parseGroups call.argumentsJson = some groups ∧
        command = .unloadTools groups m.replies) ∨
      ∃ path, call.name = "set_working_dir" ∧ command = .setWorkingDir path m.replies := by
  have hgroups : ∀ {mk : List String → SessionCommand},
      groupsCommand files known call mk = some command →
      ∃ groups, files.parseGroups call.argumentsJson = some groups ∧ command = mk groups := by
    intro mk hmk
    rcases hparse : files.parseGroups call.argumentsJson with _ | groups
    · simp only [groupsCommand, hparse, reduceCtorEq] at hmk
    · simp only [groupsCommand, hparse] at hmk
      split_ifs at hmk
      exact ⟨groups, rfl, (some.inj hmk).symm⟩
  rw [commandOf, configCommand] at h
  split_ifs at h with hload hunload hdir
  · obtain ⟨groups, hparse, hcommand⟩ := hgroups h
    exact Or.inl ⟨groups, hload, hparse, hcommand⟩
  · obtain ⟨groups, hparse, hcommand⟩ := hgroups h
    exact Or.inr (Or.inl ⟨groups, hunload, hparse, hcommand⟩)
  · obtain ⟨path, -, hcommand⟩ := map_eq_some_iff.1 h
    exact Or.inr (Or.inr ⟨path, hdir, hcommand.symm⟩)

variable {output : ToolOutput}

/-- A failed output leaves no change. -/
theorem recordedChange_of_error (h : output.isError = true)
    (baseWorkingDir : Option PathBuf) :
    recordedChange files call output baseWorkingDir = [] := by
  rw [recordedChange, if_pos h]

theorem recordedChange_loadTools {groups : List String}
    (hname : call.name = "load_tools") (hparse : files.parseGroups call.argumentsJson = some groups)
    (hok : output.isError = false) (baseWorkingDir : Option PathBuf) :
    recordedChange files call output baseWorkingDir = [.loadTools groups] := by
  simp [recordedChange, pendingConfigChange, hok, hname, hparse]

theorem recordedChange_unloadTools {groups : List String}
    (hname : call.name = "unload_tools")
    (hparse : files.parseGroups call.argumentsJson = some groups)
    (hok : output.isError = false) (baseWorkingDir : Option PathBuf) :
    recordedChange files call output baseWorkingDir = [.unloadTools groups] := by
  simp [recordedChange, pendingConfigChange, hok, hname, hparse]

theorem recordedChange_setWorkingDir {path : String}
    (hname : call.name = "set_working_dir") (hpath : output.resultPath = some path)
    (hok : output.isError = false) (baseWorkingDir : Option PathBuf) :
    recordedChange files call output baseWorkingDir = [.setWorkingDir (some (.utf8 path))] := by
  simp [recordedChange, pendingConfigChange, hok, hname, hpath]

theorem mirrored_record (env : ToolEnv) (output : ToolOutput) (m : ConfigMirror) :
    (m.record files call output).mirrored env =
      (recordedChange files call output m.worker.config.workingDir).foldl
        (applyPendingConfigChange env) (m.mirrored env) := by
  rw [mirrored, record, foldl_append]
  rfl

/-- The worker repeats what an answered call changed. -/
theorem same_of_answered {tools : ToolEnv} {env : CommandEnv} {description : String}
    {worker : SessionState} {l : Loop} (h : SameConfig worker.config l.state.config)
    (hcommand : m.commandOf files known call = some command)
    (htext : ∀ path reply, command = .setWorkingDir path reply → ∃ text, path = .utf8 text)
    (baseWorkingDir : Option PathBuf) :
    SameConfig
      ((recordedChange files call
          (configOutput description command
            ((l.processCommand env command).1.answerTo m.replies)) baseWorkingDir).foldl
        (applyPendingConfigChange tools) worker).config
      (l.processCommand env command).1.state.config := by
  obtain ⟨hgroups, hdir⟩ := h
  rcases commandOf_cases hcommand with ⟨groups, hname, hparse, rfl⟩ | ⟨groups, hname, hparse, rfl⟩ |
    ⟨path, hname, rfl⟩
  · rw [processCommand_loadTools]
    rcases hknown : unknownGroupNames groups env.knownGroupNames with _ | unknown
    · obtain ⟨hgroups', hdir', hanswer⟩ := changeToolGroups_of_known env l
        (applyLoadTools env.renderList) m.replies hknown
      rw [hanswer, recordedChange_loadTools hname hparse rfl]
      refine ⟨Eq.trans ?_ hgroups'.symm, hdir.trans hdir'.symm⟩
      rw [← hgroups]
      rfl
    · obtain ⟨hsame, hanswer⟩ := changeToolGroups_of_unknown env l
        (applyLoadTools env.renderList) m.replies hknown
      rw [hanswer, recordedChange_of_error rfl]
      exact ⟨hgroups.trans hsame.1.symm, hdir.trans hsame.2.symm⟩
  · rw [processCommand_unloadTools]
    rcases hknown : unknownGroupNames groups env.knownGroupNames with _ | unknown
    · obtain ⟨hgroups', hdir', hanswer⟩ := changeToolGroups_of_known env l
        (applyUnloadTools env.renderList) m.replies hknown
      rw [hanswer, recordedChange_unloadTools hname hparse rfl]
      refine ⟨Eq.trans ?_ hgroups'.symm, hdir.trans hdir'.symm⟩
      rw [← hgroups]
      rfl
    · obtain ⟨hsame, hanswer⟩ := changeToolGroups_of_unknown env l
        (applyUnloadTools env.renderList) m.replies hknown
      rw [hanswer, recordedChange_of_error rfl]
      exact ⟨hgroups.trans hsame.1.symm, hdir.trans hsame.2.symm⟩
  · obtain ⟨text, rfl⟩ := htext path m.replies rfl
    obtain ⟨hgroups', hdir', hanswer⟩ :=
      processCommand_setWorkingDir env l (.utf8 text) m.replies
    rw [hanswer, recordedChange_setWorkingDir hname rfl rfl]
    exact ⟨hgroups.trans hgroups'.symm, hdir'.symm⟩

end Calls

/-! ### The tool phases -/

section Phases

variable {files : ToolFiles} {m : ConfigMirror} {r : ToolRun}

/-- The tool phases of a worker keep the changes of a mirror, on the same configuration. -/
structure Mirrors (m : ConfigMirror) (r : ToolRun) : Prop where
  changes : r.phase.pendingConfigChanges = m.changes
  config : r.session.config = m.worker.config
  baseWorkingDir : r.phase.baseWorkingDir = m.worker.config.workingDir

theorem begin_mirrors (env : ToolEnv) (loop : Loop) (worker : SessionState)
    (requestId turnId : ℕ) (toolCalls : List ChatToolCall) :
    (start loop worker).Mirrors (ToolRun.begin env worker requestId turnId toolCalls) := by
  refine ⟨?_, ?_, ?_⟩ <;>
    · unfold ToolRun.begin ToolRun.broadcastTurnAppended
      dsimp only
      split <;> rfl

theorem persistLoadedSkill_config (session : SessionState) (call : ChatToolCall) :
    (persistLoadedSkill files session call).config = session.config := by
  unfold persistLoadedSkill
  split_ifs
  · rfl
  · split
    · split_ifs
      · rfl
      · split <;> rfl
    · rfl

/-- A result is recorded without touching the configuration. -/
theorem recordToolCompletion_config (env : ToolEnv) (handle : ToolHandle) (r : ToolRun) :
    (r.recordToolCompletion env files handle).session.config = r.session.config := by
  unfold ToolRun.recordToolCompletion ToolRun.collectToolResult ToolRun.finishToolCall
  dsimp only
  rw [persistLoadedSkill_config]
  simp only [ToolRun.send, ToolRun.broadcastTurnAppended_session]
  cases handle.image with
  | none => rfl
  | some image =>
    change (r.emitImage image handle.toolCall.id).session.config = _
    rw [ToolRun.emitImage, ToolRun.broadcastTurnAppended_session]
    rfl

variable (env : ToolEnv) (rest : List ℕ) (call : ChatToolCall) (output : ToolOutput)
  (image : Option PreparedImage)

/-- The tool phases keep the change of a serial call as the mirror does. -/
theorem serialRecord_pendingConfigChanges (isCancelled : Bool) (r : ToolRun) :
    (r.serialRecord env files rest call output isCancelled image).phase.pendingConfigChanges =
      r.phase.pendingConfigChanges ++
        recordedChange files call output r.phase.baseWorkingDir := by
  unfold ToolRun.serialRecord
  dsimp only
  cases isCancelled with
  | true =>
    simp only [if_true, ToolRun.finish_phase, ToolRun.recordToolCompletion_phase]
    rfl
  | false =>
    simp only [Bool.false_eq_true, if_false, ToolRun.recordToolCompletion_phase]
    rfl

theorem Mirrors.serialRecord (h : m.Mirrors r) :
    (m.record files call output).Mirrors
      (r.serialRecord env files rest call output false image) where
  changes := by
    rw [serialRecord_pendingConfigChanges, h.changes, h.baseWorkingDir]
    rfl
  config := (recordToolCompletion_config env _ r).trans h.config
  baseWorkingDir := by
    unfold ToolRun.serialRecord
    simp only [Bool.false_eq_true, if_false, ToolRun.recordToolCompletion_phase]
    exact h.baseWorkingDir

/-- Changes act on the configuration alone. -/
theorem foldl_applyPendingConfigChange_config (changes : List PendingConfigChange)
    {session session' : SessionState} (h : session.config = session'.config) :
    (changes.foldl (applyPendingConfigChange env) session).config =
      (changes.foldl (applyPendingConfigChange env) session').config := by
  induction changes generalizing session session' with
  | nil => exact h
  | cons change changes ih =>
    refine ih ?_
    cases change <;> simp only [applyPendingConfigChange, h]

/-- At the end of the tool phases the worker has the configuration of the mirror. -/
theorem finish_config (h : m.Mirrors r) :
    (r.finish env).session.config = (m.mirrored env).config := by
  have hconfig := foldl_applyPendingConfigChange_config env m.changes h.config
  unfold ToolRun.finish
  dsimp only
  rw [h.changes]
  split_ifs
  · rw [ToolRun.broadcastTurnAppended_session]
    exact hconfig
  · exact hconfig

end Phases

/-! ### Runs -/

section Runs

variable {files : ToolFiles} {tools : ToolEnv}

/-- A recorded failure leaves the mirror as it is. -/
theorem mirrored_record_of_error (call : ChatToolCall) {output : ToolOutput}
    (h : output.isError = true) (m : ConfigMirror) :
    (m.record files call output).mirrored tools = m.mirrored tools := by
  rw [mirrored_record, recordedChange_of_error h]
  rfl

/-- A faithful step keeps the mirror equal to the authoritative configuration. -/
theorem step_same {label : ConfigLabel} {m m' : ConfigMirror}
    (hfaithful : Faithful files label m)
    (h : SameConfig (m.mirrored tools).config m.loop.state.config)
    (hstep : step files label m = some m') :
    SameConfig (m'.mirrored tools).config m'.loop.state.config := by
  cases label with
  | answered env known active description call =>
    rcases hcommand : m.commandOf files known call with _ | command
    · simp only [step, hcommand, some.injEq] at hstep
      subst hstep
      rw [mirrored_record_of_error call rfl]
      exact h
    · simp only [step, hcommand] at hstep
      by_cases hactive : active = true
      · rw [if_pos hactive] at hstep
        cases hstep
        rw [mirrored_record]
        refine same_of_answered h hcommand (fun path reply hdir => ?_) _
        subst hdir
        exact hfaithful path reply hcommand hactive
      · rw [if_neg hactive] at hstep
        cases hstep
        rw [mirrored_record_of_error call rfl]
        exact h
  | abandoned known message call =>
    cases hstep
    rw [mirrored_record_of_error call rfl]
    exact h
  | processed env i =>
    obtain ⟨command, hmem, rfl⟩ := map_eq_some_iff.1 hstep
    have hsame := same_of_idle (hfaithful command hmem)
    exact ⟨h.1.trans hsame.1.symm, h.2.trans hsame.2.symm⟩
  | lost i =>
    obtain ⟨command, -, rfl⟩ := map_eq_some_iff.1 hstep
    exact h

/-- From equal copies at the start of a response, the worker's mirrored configuration is the
authoritative one in every state that faithful steps reach. -/
theorem agrees_of_run {labels : List ConfigLabel} {loop : Loop} {worker : SessionState}
    {m : ConfigMirror} (hstart : SameConfig worker.config loop.state.config)
    (hfaithful : StepSystem.Along (step files) (Faithful files) labels (start loop worker))
    (hrun : StepSystem.run (step files) labels (start loop worker) = some m) :
    m.Agrees tools := by
  have hsame : SameConfig (m.mirrored tools).config m.loop.state.config :=
    StepSystem.invariant_of_along
      (I := fun m : ConfigMirror => SameConfig (m.mirrored tools).config m.loop.state.config)
      (fun _ _ _ hG hI hs => step_same hG hI hs)
      (show SameConfig ((start loop worker).mirrored tools).config
        (start loop worker).loop.state.config from hstart) hfaithful hrun
  exact fun _ => hsame

end Runs

/-! ### Sample runs -/

/-- Helpers for calls that load the group `git` or set the given directory. -/
def sampleFiles (dir : PathBuf) : ToolFiles :=
  { Sample.files with
    parseGroups := fun _ => some ["git"]
    resolveWorkingDir := fun _ _ => some dir }

def setDir : ChatToolCall where
  id := "a"
  name := "set_working_dir"
  argumentsJson := "\x7b\"path\":\"sub\"\x7d"

def loadGit : ChatToolCall where
  id := "b"
  name := "load_tools"
  argumentsJson := "\x7b\"groups\":[\"git\"]\x7d"

/-- A new session. -/
def sampleLoop : Loop where
  state := {}
  store := {}

/-- A directory is set, a call that loads a group is given up and made again, and the late command
of the first attempt is handled last. -/
def sampleCalls : List ConfigLabel :=
  [.answered Sample.env none true "" setDir, .abandoned none "cancelled" loadGit,
    .answered Sample.env none true "" loadGit, .processed Sample.env 0]

theorem agrees_sampleCalls :
    (StepSystem.run (step (sampleFiles (.utf8 "/sub"))) sampleCalls (start sampleLoop {})).isSome ∧
      ∀ m, StepSystem.run (step (sampleFiles (.utf8 "/sub"))) sampleCalls (start sampleLoop {}) =
        some m → m.Agrees Sample.setup.tools := by
  refine ⟨by decide, fun m hrun => agrees_of_run ⟨rfl, rfl⟩ ?_ hrun⟩
  refine ⟨fun path reply h _ => ?_, trivial, fun path reply h _ => ?_, fun command hmem => ?_,
    trivial⟩
  · cases h
    exact ⟨_, rfl⟩
  · cases h
  · cases hmem
    exact Or.inr (by decide)

/-- A directory whose name is the byte `ff`, which is no text and is shown as U+FFFD. -/
def nonText : PathBuf := .other [0x2f, 0xff] "/\uFFFD"

/-- The session thread has the directory itself, the mirror its lossy rendering. -/
theorem not_agrees_nonText :
    ¬∀ m, StepSystem.run (step (sampleFiles nonText)) [.answered Sample.env none true "" setDir]
      (start sampleLoop {}) = some m → m.Agrees Sample.setup.tools := by
  intro h
  have hdir := (h _ rfl rfl).2
  cases hdir

end ConfigMirror

end Choreo
