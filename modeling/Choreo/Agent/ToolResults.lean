import Choreo.Agent.ToolSteps

/-!
# The results of the tool calls

The results of a turn are seeded with one placeholder per call, in call order, and each outcome is
written into the first result with the call's id. When the ids are distinct, the first result with an
id is the call's own, and the books of the tool phases agree with the results: an id counts as
executed only when its result was filled with an outcome of that very call. At the end every result
is filled, or marked as not recorded after a cancel.
-/

namespace Choreo

open List Option

/-- The outputs that a call can end with: what its own execution thread sent, the report that this
thread died, or a marker of a cancel, of a deadline, or of a wait loop that died. -/
inductive Outcome (description : String) (cell : CallCell) : ToolOutput → Prop
  | own (message : ExecMessage) (h : cell.exec = .sent message) :
      Outcome description cell (toolResultFromChannel description (some message))
  | died (h : cell.exec = .died) : Outcome description cell (toolResultFromChannel description none)
  | cancelled : Outcome description cell (failedOutput (cancelledMessage cell.call) description)
  | timedOut (seconds : ℕ) :
      Outcome description cell (failedOutput (timedOutMessage cell.call seconds) description)
  | panicked : Outcome description cell (failedOutput "tool thread panicked" description)

def filledRecord (call : ChatToolCall) (output : ToolOutput) : ToolResultRecord where
  callId := call.id
  name := call.name
  content := output.content
  isError := output.isError
  invocationDescription := output.invocationDescription
  image := output.imageRef

def fillRecord (name : String) (output : ToolOutput) (record : ToolResultRecord) :
    ToolResultRecord :=
  { record with
    name := name
    content := output.content
    isError := output.isError
    invocationDescription := output.invocationDescription
    image := output.imageRef }

/-- The mark of a result that was never recorded. -/
def unrecorded : String := "[cancelled — result not recorded]"

namespace ToolPhase

def Filled (env : ToolEnv) (phase : ToolPhase) (cell : CallCell) (record : ToolResultRecord) : Prop :=
  ∃ output, Outcome (phase.describe cell.call) cell output ∧
    record = filledRecord cell.call (ToolRun.recordedOutput env output)

def Marked (phase : ToolPhase) (record : ToolResultRecord) : Prop :=
  phase.cancelled = true ∧ record.content = unrecorded ∧ record.isError = true

/-- One result per call, in call order and under its id, each filled by its own call or marked as not
recorded. -/
structure Complete (env : ToolEnv) (phase : ToolPhase) (results : List ToolResultRecord) : Prop where
  ids : results.map ToolResultRecord.callId = phase.calls.map ChatToolCall.id
  filled : ∀ (i : ℕ) (cell : CallCell) (record : ToolResultRecord), phase.cells[i]? = some cell →
    results[i]? = some record → phase.Filled env cell record ∨ phase.Marked record

end ToolPhase

namespace ToolStage

/-- The serial calls that are not recorded yet. -/
def remaining : ToolStage → List ℕ
  | .serial remaining => remaining
  | .serialRunning i remaining => i :: remaining
  | _ => []

/-- The serial calls that are not started yet. -/
def unstarted : ToolStage → List ℕ
  | .serial remaining => remaining
  | .serialRunning _ remaining => remaining
  | _ => []

/-- Whether the concurrent calls are not started yet. -/
def isSerial : ToolStage → Bool
  | .serial _ | .serialRunning _ _ => true
  | _ => false

end ToolStage

/-- Whether a call runs concurrently. -/
def CallCell.isConcurrent (cell : CallCell) : Bool := !isSessionConfigTool cell.call.name

namespace ToolPhase

/-- The books of the tool phases: the ids are distinct, calls that have not started are idle, only
concurrent calls have a wait loop, every handle is an outcome of its call, only ids of concurrent
calls count as delivered, they count as executed too, and without a cancel the calls that are over
count as executed. -/
structure Accounted (phase : ToolPhase) : Prop where
  nodup : (phase.calls.map ChatToolCall.id).Nodup
  remaining_nodup : phase.stage.remaining.Nodup
  remaining_serial : ∀ (i : ℕ) (cell : CallCell), phase.cells[i]? = some cell →
    i ∈ phase.stage.remaining → cell.isConcurrent = false
  idle : ∀ (i : ℕ) (cell : CallCell), phase.cells[i]? = some cell →
    i ∈ phase.stage.unstarted ∨ (phase.stage.isSerial = true ∧ cell.isConcurrent = true) →
    cell.exec = .idle
  waiting : ∀ (i : ℕ) (cell : CallCell), phase.cells[i]? = some cell → cell.wait = .waiting →
    cell.isConcurrent = true
  queue : ∀ handle ∈ phase.queue, ∃ (i : ℕ) (cell : CallCell), phase.cells[i]? = some cell ∧
    cell.isConcurrent = true ∧ handle.toolCall = cell.call ∧
    Outcome (phase.describe cell.call) cell handle.output
  delivered : ∀ id, id ∈ phase.delivered → id ∈ phase.executed ∧
    ∃ cell ∈ phase.cells, cell.isConcurrent = true ∧ cell.call.id = id
  serial : phase.cancelled = false → ∀ (i : ℕ) (cell : CallCell), phase.cells[i]? = some cell →
    cell.isConcurrent = false → i ∉ phase.stage.remaining → cell.call.id ∈ phase.executed
  concurrent : phase.cancelled = false → phase.stage = .finished → ∀ cell ∈ phase.cells,
    cell.isConcurrent = true → cell.call.id ∈ phase.executed

/-- The results agree with the books: one per call, in call order, and filled when the id of the call
counts as executed. -/
structure Recorded (env : ToolEnv) (phase : ToolPhase) (results : List ToolResultRecord) : Prop where
  ids : results.map ToolResultRecord.callId = phase.calls.map ChatToolCall.id
  filled : ∀ (i : ℕ) (cell : CallCell) (record : ToolResultRecord), phase.cells[i]? = some cell →
    results[i]? = some record → cell.call.id ∈ phase.executed → phase.Filled env cell record
  complete : phase.stage = .finished → ∀ (i : ℕ) (cell : CallCell) (record : ToolResultRecord),
    phase.cells[i]? = some cell → results[i]? = some record →
    phase.Filled env cell record ∨ phase.Marked record

end ToolPhase

namespace ToolRun

def results (r : ToolRun) : Option (List ToolResultRecord) :=
  r.session.turns[r.phase.turnId]?.map Turn.toolResults

/-- The books of the tool phases agree with the results of the turn. -/
structure Books (env : ToolEnv) (r : ToolRun) : Prop where
  accounted : r.phase.Accounted
  recorded : ∃ results, r.results = some results ∧ r.phase.Recorded env results

end ToolRun

/-! ### Filling the first result with an id -/

namespace SessionState

theorem getElem?_modifyFirst {α κ : Type*} [DecidableEq κ] {key : α → κ} {xs : List α}
    (hnodup : (xs.map key).Nodup) (f : α → α) {i : ℕ} {x : α} (hx : xs[i]? = some x) (j : ℕ) :
    (modifyFirst (fun a => key a == key x) f xs)[j]? =
      if j = i then some (f x) else xs[j]? := by
  induction xs generalizing i j with
  | nil => cases hx
  | cons a as ih =>
    rw [map_cons, nodup_cons] at hnodup
    cases i with
    | zero =>
      cases hx
      simp only [modifyFirst, BEq.rfl, if_true]
      cases j with
      | zero => rfl
      | succ j => simp only [List.getElem?_cons_succ, Nat.succ_ne_zero, if_false]
    | succ i =>
      rw [List.getElem?_cons_succ] at hx
      have hne : (key a == key x) = false := by
        rw [beq_eq_false_iff_ne]
        intro heq
        exact hnodup.1 (heq ▸ List.mem_map_of_mem (mem_of_getElem? hx))
      simp only [modifyFirst, hne, Bool.false_eq_true, if_false]
      cases j with
      | zero => rfl
      | succ j =>
        simp only [List.getElem?_cons_succ, ih hnodup.2 hx, Nat.succ_inj]

theorem map_modifyFirst {α κ : Type*} {key : α → κ} (p : α → Bool) (f : α → α)
    (hf : ∀ a, key (f a) = key a) (xs : List α) :
    (modifyFirst p f xs).map key = xs.map key := by
  induction xs with
  | nil => rfl
  | cons a as ih =>
    simp only [modifyFirst]
    split_ifs
    · rw [map_cons, map_cons, hf]
    · rw [map_cons, map_cons, ih]

end SessionState

/-! ### Threads that go on -/

/-- A call whose threads went on: it is the same call, and what its execution thread ended with
stays. -/
def CallCell.Later (cell cell' : CallCell) : Prop :=
  cell'.call = cell.call ∧ (cell.exec ≠ .idle → cell.exec ≠ .running → cell'.exec = cell.exec)

theorem Outcome.later {description : String} {cell cell' : CallCell} {output : ToolOutput}
    (h : Outcome description cell output) (hlater : cell.Later cell') :
    Outcome description cell' output := by
  obtain ⟨hcall, hexec⟩ := hlater
  cases h with
  | own message h => exact .own message (by rw [hexec (by simp [h]) (by simp [h]), h])
  | died h => exact .died (by rw [hexec (by simp [h]) (by simp [h]), h])
  | cancelled =>
    rw [← hcall]
    exact .cancelled
  | timedOut seconds =>
    rw [← hcall]
    exact .timedOut seconds
  | panicked => exact .panicked

/-- All calls went on. -/
def LaterCells (cells cells' : List CallCell) : Prop :=
  ∀ (i : ℕ) (cell' : CallCell), cells'[i]? = some cell' →
    ∃ cell, cells[i]? = some cell ∧ cell.Later cell'

namespace ToolPhase

variable {env : ToolEnv} {phase phase' : ToolPhase} {results : List ToolResultRecord}

theorem Filled.later {cell cell' : CallCell} {record : ToolResultRecord}
    (h : phase.Filled env cell record) (hlater : cell.Later cell')
    (hdescribe : phase'.descriptionByCall = phase.descriptionByCall) :
    phase'.Filled env cell' record := by
  obtain ⟨output, houtcome, rfl⟩ := h
  refine ⟨output, ?_, by rw [hlater.1]⟩
  have hsame : phase'.describe cell'.call = phase.describe cell.call := by
    unfold describe
    rw [hdescribe, hlater.1]
  rw [hsame]
  exact houtcome.later hlater

/-- Threads that go on leave the results as they are. -/
theorem Recorded.later (h : phase.Recorded env results)
    (hcells : LaterCells phase.cells phase'.cells) (hcalls : phase'.calls = phase.calls)
    (hdescribe : phase'.descriptionByCall = phase.descriptionByCall)
    (hexecuted : phase'.executed = phase.executed)
    (hcancelled : phase.cancelled = true → phase'.cancelled = true)
    (hstage : phase'.stage = .finished → phase.stage = .finished) :
    phase'.Recorded env results where
  ids := h.ids.trans (by rw [hcalls])
  filled i cell' record hcell' hrecord hmem := by
    obtain ⟨cell, hcell, hlater⟩ := hcells i cell' hcell'
    rw [hexecuted, hlater.1] at hmem
    exact (h.filled i cell record hcell hrecord hmem).later hlater hdescribe
  complete hfinished i cell' record hcell' hrecord := by
    obtain ⟨cell, hcell, hlater⟩ := hcells i cell' hcell'
    rcases h.complete (hstage hfinished) i cell record hcell hrecord with hfilled | hmarked
    · exact Or.inl (hfilled.later hlater hdescribe)
    · exact Or.inr ⟨hcancelled hmarked.1, hmarked.2⟩

theorem Recorded.exists_record (h : phase.Recorded env results) {i : ℕ} {cell : CallCell}
    (hcell : phase.cells[i]? = some cell) :
    ∃ record, results[i]? = some record ∧ record.callId = cell.call.id := by
  have hids := congrArg (fun ids : List String => ids[i]?) h.ids
  simp only [calls, List.getElem?_map, hcell, map_some] at hids
  exact map_eq_some_iff.1 hids

theorem index_unique (hnodup : (phase.calls.map ChatToolCall.id).Nodup) {i j : ℕ}
    {cell cell' : CallCell} (hi : phase.cells[i]? = some cell) (hj : phase.cells[j]? = some cell')
    (hid : cell.call.id = cell'.call.id) : i = j := by
  have hgi : (phase.calls.map ChatToolCall.id)[i]? = some cell.call.id := by
    simp only [calls, List.getElem?_map, hi, map_some]
  have hgj : (phase.calls.map ChatToolCall.id)[j]? = some cell'.call.id := by
    simp only [calls, List.getElem?_map, hj, map_some]
  have hlt : i < (phase.calls.map ChatToolCall.id).length := (List.getElem?_eq_some_iff.1 hgi).1
  exact (List.getElem?_inj hlt hnodup).1 (hgi.trans ((congrArg some hid).trans hgj.symm))

theorem Recorded.fill (h : phase.Recorded env results)
    (hnodup : (phase.calls.map ChatToolCall.id).Nodup) {i : ℕ} {cell : CallCell}
    (hcell : phase.cells[i]? = some cell) {output : ToolOutput}
    (houtcome : Outcome (phase.describe cell.call) cell output)
    (hcells : phase'.cells = phase.cells)
    (hdescribe : phase'.descriptionByCall = phase.descriptionByCall)
    (hexecuted : phase'.executed = phase.executed.insert cell.call.id)
    (hstage : phase'.stage ≠ .finished) :
    phase'.Recorded env (SessionState.modifyFirst (fun record => record.callId == cell.call.id)
      (fillRecord cell.call.name (ToolRun.recordedOutput env output)) results) := by
  have hcalls : phase'.calls = phase.calls := by
    unfold calls
    rw [hcells]
  obtain ⟨own, hown, hownId⟩ := h.exists_record hcell
  have hresults : (results.map ToolResultRecord.callId).Nodup := by
    rw [h.ids]
    exact hnodup
  refine ⟨?_, ?_, ?_⟩
  · rw [hcalls, ← h.ids]
    exact SessionState.map_modifyFirst _ (fillRecord _ _) (fun _ => rfl) results
  · intro j cell' record hcell' hrecord hmem
    rw [hcells] at hcell'
    rw [← hownId, SessionState.getElem?_modifyFirst hresults _ hown] at hrecord
    split_ifs at hrecord with hij
    · subst hij
      cases hcell.symm.trans hcell'
      cases hrecord
      refine ⟨output, ?_, ?_⟩
      · unfold describe
        rw [hdescribe]
        exact houtcome
      · simp only [filledRecord, fillRecord, hownId]
    · rw [hexecuted, Std.ExtTreeSet.mem_insert] at hmem
      rcases hmem with heq | hmem
      · have hid := Std.LawfulEqCmp.compare_eq_iff_eq.1 heq
        exact absurd (index_unique hnodup hcell' hcell hid.symm) hij
      · exact (h.filled j cell' record hcell' hrecord hmem).later ⟨rfl, fun _ _ => rfl⟩ hdescribe
  · exact fun hfinished => absurd hfinished hstage

end ToolPhase

/-! ### Keeping the books -/

namespace ToolPhase

variable {g : ℕ → CallCell → CallCell} {phase phase' : ToolPhase}

/-- The ways in which the books go on, when the call at position `j` goes on by `g j`. -/
structure Advance (g : ℕ → CallCell → CallCell) (phase phase' : ToolPhase) : Prop where
  cells : ∀ j : ℕ, phase'.cells[j]? = phase.cells[j]?.map (g j)
  later : ∀ (j : ℕ) (cell : CallCell), phase.cells[j]? = some cell → cell.Later (g j cell)
  wait : ∀ (j : ℕ) (cell : CallCell), phase.cells[j]? = some cell → (g j cell).wait = .waiting →
    cell.wait = .waiting ∨ cell.isConcurrent = true
  idle : ∀ (j : ℕ) (cell : CallCell), phase.cells[j]? = some cell →
    j ∈ phase'.stage.unstarted ∨ (phase'.stage.isSerial = true ∧ cell.isConcurrent = true) →
    (g j cell).exec = .idle
  describe : phase'.descriptionByCall = phase.descriptionByCall
  nodup : phase'.stage.remaining.Nodup
  remaining : ∀ i ∈ phase'.stage.remaining, i ∈ phase.stage.remaining
  queue : ∀ handle ∈ phase'.queue, handle ∈ phase.queue ∨ ∃ (i : ℕ) (cell : CallCell),
    phase.cells[i]? = some cell ∧ cell.isConcurrent = true ∧ handle.toolCall = cell.call ∧
    Outcome (phase.describe cell.call) cell handle.output
  executed : ∀ id ∈ phase.executed, id ∈ phase'.executed
  delivered : ∀ id ∈ phase'.delivered, id ∈ phase.delivered ∨ id ∈ phase'.executed ∧
    ∃ cell ∈ phase.cells, cell.isConcurrent = true ∧ cell.call.id = id
  cancelled : phase'.cancelled = false → phase.cancelled = false
  recorded : phase'.cancelled = false → ∀ (i : ℕ) (cell : CallCell), phase.cells[i]? = some cell →
    i ∈ phase.stage.remaining → i ∉ phase'.stage.remaining → cell.call.id ∈ phase'.executed
  finished : phase'.cancelled = false → phase'.stage = .finished → phase.stage = .finished ∨
    ∀ cell ∈ phase.cells, cell.isConcurrent = true → cell.call.id ∈ phase'.executed

namespace Advance

/-- A call after the step comes from one before it. -/
theorem before (h : Advance g phase phase') {j : ℕ} {cell' : CallCell}
    (hcell' : phase'.cells[j]? = some cell') :
    ∃ cell, phase.cells[j]? = some cell ∧ cell' = g j cell ∧ cell'.call = cell.call := by
  rw [h.cells j] at hcell'
  obtain ⟨cell, hcell, rfl⟩ := map_eq_some_iff.1 hcell'
  exact ⟨cell, hcell, rfl, (h.later j cell hcell).1⟩

theorem after (h : Advance g phase phase') {j : ℕ} {cell : CallCell}
    (hcell : phase.cells[j]? = some cell) :
    phase'.cells[j]? = some (g j cell) ∧ (g j cell).call = cell.call := by
  refine ⟨?_, (h.later j cell hcell).1⟩
  rw [h.cells j, hcell]
  rfl

theorem laterCells (h : Advance g phase phase') : LaterCells phase.cells phase'.cells := by
  intro j cell' hcell'
  obtain ⟨cell, hcell, rfl, -⟩ := h.before hcell'
  exact ⟨cell, hcell, h.later j cell hcell⟩

theorem calls (h : Advance g phase phase') : phase'.calls = phase.calls := by
  refine ext_getElem? fun j => ?_
  unfold ToolPhase.calls
  rw [List.getElem?_map, List.getElem?_map, h.cells j]
  cases hcell : phase.cells[j]? with
  | none => rfl
  | some cell =>
    rw [map_some, map_some, map_some, (h.later j cell hcell).1]

theorem isConcurrent {cell cell' : CallCell} (h : cell'.call = cell.call) :
    cell'.isConcurrent = cell.isConcurrent := by
  unfold CallCell.isConcurrent
  rw [h]

theorem mem_cells (h : Advance g phase phase') {cell' : CallCell} (hcell' : cell' ∈ phase'.cells) :
    ∃ cell ∈ phase.cells, cell'.call = cell.call := by
  obtain ⟨j, hj⟩ := mem_iff_getElem?.1 hcell'
  obtain ⟨cell, hcell, -, hcall⟩ := h.before hj
  exact ⟨cell, mem_of_getElem? hcell, hcall⟩

theorem exists_cell (h : Advance g phase phase') {cell : CallCell} (hcell : cell ∈ phase.cells) :
    ∃ cell' ∈ phase'.cells, cell'.call = cell.call := by
  obtain ⟨j, hj⟩ := mem_iff_getElem?.1 hcell
  obtain ⟨hcell', hcall⟩ := h.after hj
  exact ⟨g j cell, mem_of_getElem? hcell', hcall⟩

/-- Books that go on stay in order. -/
theorem accounted (h : Advance g phase phase') (hphase : phase.Accounted) : phase'.Accounted where
  nodup := by
    rw [h.calls]
    exact hphase.nodup
  remaining_nodup := h.nodup
  remaining_serial j cell' hcell' hj := by
    obtain ⟨cell, hcell, -, hcall⟩ := h.before hcell'
    rw [isConcurrent hcall]
    exact hphase.remaining_serial j cell hcell (h.remaining j hj)
  idle j cell' hcell' hj := by
    obtain ⟨cell, hcell, rfl, hcall⟩ := h.before hcell'
    rw [isConcurrent hcall] at hj
    exact h.idle j cell hcell hj
  waiting j cell' hcell' hwaiting := by
    obtain ⟨cell, hcell, rfl, hcall⟩ := h.before hcell'
    rw [isConcurrent hcall]
    exact (h.wait j cell hcell hwaiting).elim (hphase.waiting j cell hcell) id
  queue handle hhandle := by
    have hafter : ∀ (i : ℕ) (cell : CallCell), phase.cells[i]? = some cell →
        cell.isConcurrent = true → handle.toolCall = cell.call →
        Outcome (phase.describe cell.call) cell handle.output →
        ∃ (i : ℕ) (cell : CallCell), phase'.cells[i]? = some cell ∧ cell.isConcurrent = true ∧
          handle.toolCall = cell.call ∧ Outcome (phase'.describe cell.call) cell handle.output := by
      intro i cell hcell hconcurrent hcall houtcome
      obtain ⟨hcell', hcall'⟩ := h.after hcell
      refine ⟨i, g i cell, hcell', (isConcurrent hcall').trans hconcurrent, hcall.trans hcall'.symm,
        ?_⟩
      rw [hcall']
      unfold ToolPhase.describe
      rw [h.describe]
      exact houtcome.later (h.later i cell hcell)
    rcases h.queue handle hhandle with hmem | ⟨i, cell, hcell, hconcurrent, hcall, houtcome⟩
    · obtain ⟨i, cell, hcell, hconcurrent, hcall, houtcome⟩ := hphase.queue handle hmem
      exact hafter i cell hcell hconcurrent hcall houtcome
    · exact hafter i cell hcell hconcurrent hcall houtcome
  delivered id hid := by
    have hcell : id ∈ phase'.executed ∧
        ∃ cell ∈ phase.cells, cell.isConcurrent = true ∧ cell.call.id = id := by
      rcases h.delivered id hid with hbefore | hnew
      · exact (hphase.delivered id hbefore).imp_left (h.executed id)
      · exact hnew
    obtain ⟨hexecuted, cell, hmem, hconcurrent, hcallId⟩ := hcell
    obtain ⟨cell', hmem', hcall⟩ := h.exists_cell hmem
    refine ⟨hexecuted, cell', hmem', (isConcurrent hcall).trans hconcurrent, ?_⟩
    rw [hcall, hcallId]
  serial hcancelled j cell' hcell' hserial hj := by
    obtain ⟨cell, hcell, -, hcall⟩ := h.before hcell'
    rw [isConcurrent hcall] at hserial
    rw [hcall]
    by_cases hbefore : j ∈ phase.stage.remaining
    · exact h.recorded hcancelled j cell hcell hbefore hj
    · exact h.executed _ (hphase.serial (h.cancelled hcancelled) j cell hcell hserial hbefore)
  concurrent hcancelled hstage cell' hcell' hconcurrent := by
    obtain ⟨cell, hcell, hcall⟩ := h.mem_cells hcell'
    rw [isConcurrent hcall] at hconcurrent
    rw [hcall]
    rcases h.finished hcancelled hstage with hfinished | hall
    · exact h.executed _
        (hphase.concurrent (h.cancelled hcancelled) hfinished cell hcell hconcurrent)
    · exact hall cell hcell hconcurrent

end Advance

end ToolPhase

/-! ### What the operations do to the results -/

namespace ToolRun

theorem broadcastTurnAppended_session (r : ToolRun) :
    r.broadcastTurnAppended.session = r.session := by
  unfold broadcastTurnAppended
  split <;> rfl

theorem results_broadcastTurnAppended (r : ToolRun) :
    r.broadcastTurnAppended.results = r.results := by
  unfold results
  rw [broadcastTurnAppended_session, broadcastTurnAppended_phase]

theorem results_of_modifyTurn {r' : ToolRun} {session : SessionState} {turnId : ℕ} {f : Turn → Turn}
    (g : List ToolResultRecord → List ToolResultRecord)
    (hsession : r'.session = session.modifyTurn turnId f) (hturn : r'.phase.turnId = turnId)
    (hf : ∀ turn, (f turn).toolResults = g turn.toolResults) :
    r'.results = (session.turns[turnId]?.map Turn.toolResults).map g := by
  unfold results
  rw [hsession, hturn, SessionState.get_modifyTurn, if_pos rfl, Option.map_map, Option.map_map]
  exact congrArg (fun h => session.turns[turnId]?.map h) (funext hf)

theorem results_emitImage (image : PreparedImage) (callId : String) (r : ToolRun) :
    (r.emitImage image callId).results = r.results := by
  unfold emitImage
  rw [results_broadcastTurnAppended]
  refine (results_of_modifyTurn id rfl rfl fun _ => ?_).trans ?_
  · rfl
  · rw [Option.map_id]
    rfl

theorem results_finishToolCall (call : ChatToolCall) (output : ToolOutput) (r : ToolRun) :
    (r.finishToolCall call output).results =
      r.results.map (SessionState.modifyFirst (fun record => record.callId == call.id)
        (fillRecord call.name output)) := by
  unfold finishToolCall
  refine (results_broadcastTurnAppended _).trans ?_
  refine results_of_modifyTurn _ rfl rfl fun _ => ?_
  rfl

theorem persistLoadedSkill_turns (files : ToolFiles) (session : SessionState) (call : ChatToolCall) :
    (persistLoadedSkill files session call).turns = session.turns := by
  unfold persistLoadedSkill
  split_ifs
  · rfl
  · split
    · split_ifs
      · rfl
      · split <;> rfl
    · rfl

variable (env : ToolEnv)

theorem results_recordToolCompletion (files : ToolFiles) (handle : ToolHandle)
    (r : ToolRun) :
    (r.recordToolCompletion env files handle).results =
      r.results.map (SessionState.modifyFirst
        (fun record => record.callId == handle.toolCall.id)
        (fillRecord handle.toolCall.name (recordedOutput env handle.output))) := by
  have hcollect : ∀ r₁ : ToolRun,
      results { (r₁.collectToolResult files handle.toolCall (recordedOutput env handle.output)) with
        phase := { (r₁.collectToolResult files handle.toolCall
            (recordedOutput env handle.output)).phase with
          executed := (r₁.collectToolResult files handle.toolCall
            (recordedOutput env handle.output)).phase.executed.insert handle.toolCall.id } } =
      r₁.results := by
    intro r₁
    unfold results collectToolResult
    rw [persistLoadedSkill_turns]
  unfold recordToolCompletion
  dsimp only
  rw [hcollect, results_finishToolCall]
  cases handle.image with
  | none => rfl
  | some image => rw [results_emitImage]

theorem foldl_applyPendingConfigChange_turns (changes : List PendingConfigChange)
    (session : SessionState) :
    (changes.foldl (applyPendingConfigChange env) session).turns = session.turns := by
  induction changes generalizing session with
  | nil => rfl
  | cons change changes ih =>
    rw [foldl_cons, ih]
    cases change <;> rfl

theorem results_finish (r : ToolRun) :
    (r.finish env).results =
      if r.phase.cancelled = true then
        r.results.map (List.map fun record =>
          if r.phase.executed.contains record.callId then record
          else { record with content := unrecorded, isError := true })
      else r.results := by
  have hsession : results
      { r with
        session := r.phase.pendingConfigChanges.foldl (applyPendingConfigChange env) r.session
        phase := { r.phase with stage := .finished } } = r.results := by
    unfold results
    rw [foldl_applyPendingConfigChange_turns]
  unfold finish
  dsimp only
  split_ifs
  · refine (results_broadcastTurnAppended _).trans ?_
    rw [← hsession]
    refine results_of_modifyTurn _ rfl rfl fun _ => ?_
    rfl
  · exact hsession

theorem results_startConcurrent (r : ToolRun) : r.startConcurrent.results = r.results := by
  have hfold : ∀ (calls : List ChatToolCall) (r : ToolRun),
      (calls.foldl (fun r call => r.announceStart call) r).results = r.results := by
    intro calls
    induction calls with
    | nil => exact fun _ => rfl
    | cons call calls ih => exact fun r => ih (r.announceStart call)
  exact hfold _ r

/-! ### The steps keep the books -/

variable {env : ToolEnv} {r r' : ToolRun} {g : ℕ → CallCell → CallCell}

/-- A step that records nothing. -/
theorem Books.of_advance (h : Books env r) (hadvance : ToolPhase.Advance g r.phase r'.phase)
    (hresults : r'.results = r.results) (hexecuted : r'.phase.executed = r.phase.executed)
    (hstage : r'.phase.stage = .finished → r.phase.stage = .finished) : Books env r' := by
  obtain ⟨results, hr, hrecorded⟩ := h.recorded
  refine ⟨hadvance.accounted h.accounted, results, hresults.trans hr, ?_⟩
  refine hrecorded.later hadvance.laterCells hadvance.calls hadvance.describe hexecuted ?_ hstage
  intro hcancelled
  by_contra hnot
  rw [hadvance.cancelled (Bool.eq_false_iff.2 hnot)] at hcancelled
  cases hcancelled

variable {cell : CallCell} {i : ℕ}

theorem Books.of_record (h : Books env r)
    (hcell : r.phase.cells[i]? = some cell) (output : ToolOutput)
    (houtcome : Outcome (r.phase.describe cell.call) cell output)
    (hadvance : ToolPhase.Advance (fun _ cell => cell) r.phase r'.phase)
    (hresults : r'.results = r.results.map (SessionState.modifyFirst
      (fun record => record.callId == cell.call.id)
      (fillRecord cell.call.name (recordedOutput env output))))
    (hexecuted : r'.phase.executed = r.phase.executed.insert cell.call.id)
    (hstage : r'.phase.stage ≠ .finished) : Books env r' := by
  obtain ⟨results, hr, hrecorded⟩ := h.recorded
  have hcells : r'.phase.cells = r.phase.cells := by
    refine ext_getElem? fun j => ?_
    rw [hadvance.cells j, Option.map_id']
  refine ⟨hadvance.accounted h.accounted, _, hresults.trans (by rw [hr, map_some]), ?_⟩
  exact hrecorded.fill h.accounted.nodup hcell houtcome hcells hadvance.describe hexecuted hstage

/-- A step that leaves the threads alone. -/
theorem advance_of_cells {phase phase' : ToolPhase} (hphase : phase.Accounted)
    (hcells : phase'.cells = phase.cells)
    (hdescribe : phase'.descriptionByCall = phase.descriptionByCall)
    (hidle : ∀ (j : ℕ) (cell : CallCell), phase.cells[j]? = some cell →
      j ∈ phase'.stage.unstarted ∨ (phase'.stage.isSerial = true ∧ cell.isConcurrent = true) →
      j ∈ phase.stage.unstarted ∨ (phase.stage.isSerial = true ∧ cell.isConcurrent = true))
    (hnodup : phase'.stage.remaining.Nodup)
    (hremaining : ∀ i ∈ phase'.stage.remaining, i ∈ phase.stage.remaining)
    (hqueue : ∀ handle ∈ phase'.queue, handle ∈ phase.queue)
    (hexecuted : ∀ id ∈ phase.executed, id ∈ phase'.executed)
    (hdelivered : ∀ id ∈ phase'.delivered, id ∈ phase.delivered ∨ id ∈ phase'.executed ∧
      ∃ cell ∈ phase.cells, cell.isConcurrent = true ∧ cell.call.id = id)
    (hcancelled : phase'.cancelled = false → phase.cancelled = false)
    (hrecorded : phase'.cancelled = false → ∀ (i : ℕ) (cell : CallCell),
      phase.cells[i]? = some cell → i ∈ phase.stage.remaining → i ∉ phase'.stage.remaining →
      cell.call.id ∈ phase'.executed)
    (hfinished : phase'.cancelled = false → phase'.stage = .finished → phase.stage = .finished ∨
      ∀ cell ∈ phase.cells, cell.isConcurrent = true → cell.call.id ∈ phase'.executed) :
    ToolPhase.Advance (fun _ cell => cell) phase phase' where
  cells j := by rw [hcells, Option.map_id']
  later _ _ _ := ⟨rfl, fun _ _ => rfl⟩
  wait _ _ _ hwaiting := Or.inl hwaiting
  idle j cell hcell hj := hphase.idle j cell hcell (hidle j cell hcell hj)
  describe := hdescribe
  nodup := hnodup
  remaining := hremaining
  queue handle hhandle := Or.inl (hqueue handle hhandle)
  executed := hexecuted
  delivered := hdelivered
  cancelled := hcancelled
  recorded := hrecorded
  finished := hfinished

theorem Books.finish (h : Books env r)
    (hserial : r.phase.cancelled = false → r.phase.stage.remaining = [])
    (hconcurrent : r.phase.cancelled = false → ∀ cell ∈ r.phase.cells,
      cell.isConcurrent = true → cell.call.id ∈ r.phase.executed) :
    Books env (r.finish env) := by
  obtain ⟨results, hr, hrecorded⟩ := h.recorded
  have hphase := finish_phase env r
  have hadvance : ToolPhase.Advance (fun _ cell => cell) r.phase (r.finish env).phase := by
    rw [hphase]
    refine advance_of_cells h.accounted rfl rfl ?_ nodup_nil ?_ (fun _ hh => hh)
      (fun _ hid => hid) (fun _ hid => Or.inl hid) id ?_ fun hcancelled _ => Or.inr (hconcurrent hcancelled)
    · rintro j cell - (hj | ⟨hj, -⟩)
      · cases hj
      · cases hj
    · intro i hi
      cases hi
    · intro hcancelled i cell _ hi
      rw [hserial hcancelled] at hi
      cases hi
  have haccounted := hadvance.accounted h.accounted
  have hresults := results_finish env r
  rw [hr] at hresults
  have hfilled : ∀ {cell : CallCell} {record : ToolResultRecord},
      r.phase.Filled env cell record → (r.finish env).phase.Filled env cell record :=
    fun hf => hf.later ⟨rfl, fun _ _ => rfl⟩ (by rw [hphase])
  by_cases hcancelled : r.phase.cancelled = true
  · rw [if_pos hcancelled, map_some] at hresults
    refine ⟨haccounted, _, hresults, ?_, ?_, ?_⟩
    · rw [hadvance.calls, ← hrecorded.ids, List.map_map]
      refine map_congr_left fun record _ => ?_
      simp only [Function.comp_apply]
      split_ifs <;> rfl
    · intro i cell record hcell hrecord hmem
      rw [hphase] at hcell hmem
      rw [List.getElem?_map, map_eq_some_iff] at hrecord
      obtain ⟨record', hrecord', rfl⟩ := hrecord
      obtain ⟨own, hown, hownId⟩ := hrecorded.exists_record hcell
      cases hrecord'.symm.trans hown
      rw [hownId, Std.ExtTreeSet.contains_iff_mem.2 hmem, if_pos rfl]
      exact hfilled (hrecorded.filled i cell record' hcell hrecord' hmem)
    · intro _ i cell record hcell hrecord
      rw [hphase] at hcell
      rw [List.getElem?_map, map_eq_some_iff] at hrecord
      obtain ⟨record', hrecord', rfl⟩ := hrecord
      obtain ⟨own, hown, hownId⟩ := hrecorded.exists_record hcell
      cases hrecord'.symm.trans hown
      split_ifs with hcontains
      · rw [hownId] at hcontains
        exact Or.inl (hfilled (hrecorded.filled i cell record' hcell hrecord'
          (Std.ExtTreeSet.contains_iff_mem.1 hcontains)))
      · refine Or.inr ⟨?_, rfl, rfl⟩
        rw [hphase]
        exact hcancelled
  · rw [if_neg hcancelled] at hresults
    have hnot : (r.finish env).phase.cancelled = false := by
      rw [hphase]
      exact Bool.eq_false_iff.2 hcancelled
    have hall : ∀ (i : ℕ) (cell : CallCell), (r.finish env).phase.cells[i]? = some cell →
        cell.call.id ∈ (r.finish env).phase.executed := by
      intro i cell hcell
      cases hkind : cell.isConcurrent with
      | true =>
        refine haccounted.concurrent hnot ?_ cell (mem_of_getElem? hcell) hkind
        rw [hphase]
      | false =>
        refine haccounted.serial hnot i cell hcell hkind ?_
        rw [hphase]
        exact not_mem_nil
    refine ⟨haccounted, results, hresults, ?_, ?_, ?_⟩
    · rw [hadvance.calls, hrecorded.ids]
    · intro i cell record hcell hrecord hmem
      rw [hphase] at hcell hmem
      exact hfilled (hrecorded.filled i cell record hcell hrecord hmem)
    · intro _ i cell record hcell hrecord
      have hmem := hall i cell hcell
      rw [hphase] at hcell hmem
      exact Or.inl (hfilled (hrecorded.filled i cell record hcell hrecord hmem))

theorem outcome_drainQueuedOrSynthesize {description stopMessage : String}
    (h : Outcome description cell (failedOutput stopMessage description)) :
    Outcome description cell (drainQueuedOrSynthesize description stopMessage cell.exec) := by
  cases hexec : cell.exec with
  | idle | running => exact h
  | sent message => exact .own message hexec
  | died => exact .died hexec

theorem outcome_serialOutcome {cancelPending : Bool} {cause : WaitCause}
    {description : String} {outcome : ToolOutput × Bool}
    (h : serialOutcome env cancelPending cause cell description = some outcome) :
    Outcome description cell outcome.1 := by
  unfold serialOutcome at h
  split at h
  · next message hexec =>
    cases h
    exact .own message hexec
  · next hexec =>
    cases h
    exact .died hexec
  · cases h
  · split_ifs at h
    cases h
    exact outcome_drainQueuedOrSynthesize .cancelled
  · cases h
    exact outcome_drainQueuedOrSynthesize (.timedOut _)

variable {output : ToolOutput}

theorem outcome_waitOutcome {phase : ToolPhase} {cause : WaitCause}
    (h : waitOutcome env phase cause cell = some output) :
    Outcome (phase.describe cell.call) cell output := by
  unfold waitOutcome at h
  dsimp only at h
  split at h
  · next message hexec =>
    cases h
    exact .own message hexec
  · next hexec =>
    cases h
    exact .died hexec
  · cases h
  · split_ifs at h
    cases h
    exact .cancelled
  · obtain ⟨seconds, -, rfl⟩ := map_eq_some_iff.1 h
    exact outcome_drainQueuedOrSynthesize (.timedOut seconds)

/-! #### Threads -/

/-- A step of a thread of the call at position `i`. -/
theorem advance_modifyCell {phase : ToolPhase} (hphase : phase.Accounted)
    {f : CallCell → CallCell} (hcell : phase.cells[i]? = some cell) (hlater : cell.Later (f cell))
    (hwait : (f cell).wait = .waiting → cell.wait = .waiting)
    (hidle : cell.exec = .idle → (f cell).exec = .idle) {queue : List ToolHandle}
    (hqueue : ∀ handle ∈ queue, handle ∈ phase.queue ∨ ∃ (i : ℕ) (cell : CallCell),
      phase.cells[i]? = some cell ∧ cell.isConcurrent = true ∧ handle.toolCall = cell.call ∧
      Outcome (phase.describe cell.call) cell handle.output) :
    ToolPhase.Advance (fun j cell => if i = j then f cell else cell) phase
      { phase.modifyCell i f with queue := queue } where
  cells j := List.getElem?_modify f i phase.cells j
  later j cell' hcell' := by
    split_ifs with hij
    · subst hij
      cases hcell.symm.trans hcell'
      exact hlater
    · exact ⟨rfl, fun _ _ => rfl⟩
  wait j cell' hcell' hwaiting := by
    split_ifs at hwaiting with hij
    · subst hij
      cases hcell.symm.trans hcell'
      exact Or.inl (hwait hwaiting)
    · exact Or.inl hwaiting
  idle j cell' hcell' hj := by
    have hbefore := hphase.idle j cell' hcell' hj
    split_ifs with hij
    · subst hij
      cases hcell.symm.trans hcell'
      exact hidle hbefore
    · exact hbefore
  describe := rfl
  nodup := hphase.remaining_nodup
  remaining _ hi := hi
  queue := hqueue
  executed _ hid := hid
  delivered _ hid := Or.inl hid
  cancelled := id
  recorded _ _ _ _ hi hi' := absurd hi hi'
  finished _ hstage := Or.inl hstage

/-- A step of a thread keeps the books. -/
theorem Books.modifyCell (h : Books env r) {f : CallCell → CallCell}
    (queue : List ToolHandle)
    (hcell : r.phase.cells[i]? = some cell) (hlater : cell.Later (f cell))
    (hwait : (f cell).wait = .waiting → cell.wait = .waiting)
    (hidle : cell.exec = .idle → (f cell).exec = .idle)
    (hqueue : ∀ handle ∈ queue, handle ∈ r.phase.queue ∨ ∃ (i : ℕ) (cell : CallCell),
      r.phase.cells[i]? = some cell ∧ cell.isConcurrent = true ∧ handle.toolCall = cell.call ∧
      Outcome (r.phase.describe cell.call) cell handle.output) :
    Books env { r with phase := { r.phase.modifyCell i f with queue := queue } } := by
  refine Books.of_advance (g := fun j cell => if i = j then f cell else cell) h ?_ rfl rfl id
  exact advance_modifyCell h.accounted hcell hlater hwait hidle hqueue

theorem exec_books (h : Books env r)
    (hcell : r.phase.cells[i]? = some cell) (hrunning : cell.exec = .running) (exec : ExecState) :
    Books env { r with phase := r.phase.modifyCell i fun cell => { cell with exec := exec } } := by
  refine h.modifyCell (f := fun cell => { cell with exec := exec }) r.phase.queue hcell
    ⟨rfl, fun _ hne => absurd hrunning hne⟩ id ?_ fun _ hh => Or.inl hh
  intro hidle
  rw [hrunning] at hidle
  cases hidle

theorem waitDie_books (h : Books env r)
    (hcell : r.phase.cells[i]? = some cell) :
    Books env { r with phase := r.phase.modifyCell i fun cell => { cell with wait := .died } } := by
  refine h.modifyCell (f := fun cell => { cell with wait := .died }) r.phase.queue hcell
    ⟨rfl, fun _ _ => rfl⟩ ?_ id fun _ hh => Or.inl hh
  intro hwaiting
  cases hwaiting

theorem wake_books (h : Books env r)
    (hcell : r.phase.cells[i]? = some cell) (hwaiting : cell.wait = .waiting) {cause : WaitCause}
    (houtput : waitOutcome env r.phase cause cell = some output)
    (image : Option PreparedImage) :
    Books env { r with
      phase := { r.phase.modifyCell i (fun cell => { cell with wait := .delivered }) with
        queue := r.phase.queue ++
          [{ toolCall := cell.call, output := output, image := image }] } } := by
  refine h.modifyCell (f := fun cell => { cell with wait := .delivered }) _ hcell
    ⟨rfl, fun _ _ => rfl⟩ ?_ id ?_
  · intro hdelivered
    cases hdelivered
  · intro handle hhandle
    rcases mem_append.1 hhandle with hmem | hmem
    · exact Or.inl hmem
    · rw [mem_singleton.1 hmem]
      exact Or.inr ⟨i, cell, hcell, h.accounted.waiting i cell hcell hwaiting, rfl,
        outcome_waitOutcome houtput⟩

/-! #### Serial calls -/

theorem mem_map_filter_zipIdx {α : Type*} {p : α × ℕ → Bool} {xs : List α} :
    i ∈ (xs.zipIdx.filter p).map Prod.snd ↔ ∃ x, xs[i]? = some x ∧ p (x, i) = true := by
  simp only [List.mem_map, mem_filter, Prod.exists, List.mem_zipIdx_iff_getElem?]
  constructor
  · rintro ⟨x, j, ⟨hx, hp⟩, rfl⟩
    exact ⟨x, hx, hp⟩
  · rintro ⟨x, hx, hp⟩
    exact ⟨x, i, ⟨hx, hp⟩, rfl⟩

theorem mem_concurrent {phase : ToolPhase} :
    i ∈ phase.concurrent ↔ ∃ cell, phase.cells[i]? = some cell ∧ cell.isConcurrent = true :=
  mem_map_filter_zipIdx

theorem startConcurrent_books (h : Books env r) (hstage : r.phase.stage = .serial []) :
    Books env r.startConcurrent := by
  have hphase := startConcurrent_phase r
  refine Books.of_advance (g := fun j cell =>
    if j ∈ r.phase.concurrent then { cell with exec := .running, wait := .waiting } else cell)
    h ?_ (results_startConcurrent r) (by rw [hphase]) (by rw [hphase]; rintro ⟨⟩)
  have hidle : ∀ (j : ℕ) (cell : CallCell), r.phase.cells[j]? = some cell →
      j ∈ r.phase.concurrent → cell.exec = .idle := by
    intro j cell hcell hj
    obtain ⟨cell', hcell', hconcurrent⟩ := mem_concurrent.1 hj
    cases hcell.symm.trans hcell'
    refine h.accounted.idle j cell hcell (Or.inr ⟨?_, hconcurrent⟩)
    rw [hstage]
    rfl
  rw [hphase]
  refine ⟨fun j => ?_, fun j cell hcell => ?_, fun j cell hcell hwaiting => ?_, ?_, rfl,
    nodup_nil, ?_, fun _ hh => Or.inl hh, fun _ hid => hid, fun _ hid => Or.inl hid, id, ?_, ?_⟩
  · rw [List.getElem?_map, List.getElem?_zipIdx, Option.map_map]
    simp only [Function.comp_def, Nat.zero_add]
  · split_ifs with hj
    · exact ⟨rfl, fun hne => absurd (hidle j cell hcell hj) hne⟩
    · exact ⟨rfl, fun _ _ => rfl⟩
  · split_ifs at hwaiting with hj
    · obtain ⟨cell', hcell', hconcurrent⟩ := mem_concurrent.1 hj
      cases hcell.symm.trans hcell'
      exact Or.inr hconcurrent
    · exact Or.inl hwaiting
  · rintro j cell - (hj | ⟨hj, -⟩)
    · cases hj
    · cases hj
  · intro i hi
    cases hi
  · intro _ i cell _ hi
    rw [hstage] at hi
    cases hi
  · rintro - ⟨⟩

theorem cancel_books (h : Books env r) (stage : ToolStage) (killed : Bool)
    (hfinished : stage = .finished → r.phase.stage = .finished)
    (hstage : stage.remaining = [] ∧ stage.unstarted = [] ∧ stage.isSerial = false ∨
      stage = r.phase.stage) :
    Books env { r with
      phase := { r.phase with cancelled := true, killed := killed, stage := stage } } := by
  have hremaining : stage.remaining.Nodup ∧ (∀ i ∈ stage.remaining, i ∈ r.phase.stage.remaining) := by
    rcases hstage with ⟨hnil, -, -⟩ | rfl
    · rw [hnil]
      exact ⟨nodup_nil, fun _ hi => absurd hi not_mem_nil⟩
    · exact ⟨h.accounted.remaining_nodup, fun _ hi => hi⟩
  refine Books.of_advance (g := fun _ cell => cell) h ?_ rfl rfl hfinished
  refine advance_of_cells h.accounted rfl rfl ?_ hremaining.1 hremaining.2 (fun _ hh => hh)
    (fun _ hid => hid) (fun _ hid => Or.inl hid) (fun hc => (by cases hc)) (fun hc => (by cases hc))
    fun hc => (by cases hc)
  rintro j cell - hj
  rcases hstage with ⟨-, hunstarted, hserial⟩ | rfl
  · rw [hunstarted, hserial] at hj
    rcases hj with hj | ⟨hj, -⟩
    · cases hj
    · cases hj
  · exact hj

theorem serialStart_books (h : Books env r) {rest : List ℕ}
    (hstage : r.phase.stage = .serial (i :: rest)) (hcell : r.phase.cells[i]? = some cell) :
    Books env { r with
      phase := { r.phase.modifyCell i (fun cell => { cell with exec := .running }) with
        stage := .serialRunning i rest } } := by
  have haccounted := h.accounted
  have hnodup := haccounted.remaining_nodup
  rw [hstage] at hnodup
  have hidle : cell.exec = .idle := by
    refine haccounted.idle i cell hcell (Or.inl ?_)
    rw [hstage]
    exact mem_cons_self
  have hserial : cell.isConcurrent = false := by
    refine haccounted.remaining_serial i cell hcell ?_
    rw [hstage]
    exact mem_cons_self
  refine Books.of_advance
    (g := fun j cell => if i = j then { cell with exec := .running } else cell) h ?_ rfl rfl
    (by rintro ⟨⟩)
  refine ⟨fun j => List.getElem?_modify _ i r.phase.cells j, fun j cell' hcell' => ?_,
    fun j cell' hcell' hwaiting => ?_, fun j cell' hcell' hj => ?_, rfl, hnodup, ?_,
    fun _ hh => Or.inl hh, fun _ hid => hid, fun _ hid => Or.inl hid, id, ?_, ?_⟩
  · split_ifs with hij
    · subst hij
      cases hcell.symm.trans hcell'
      exact ⟨rfl, fun hne => absurd hidle hne⟩
    · exact ⟨rfl, fun _ _ => rfl⟩
  · split_ifs at hwaiting <;> exact Or.inl hwaiting
  · have hne : i ≠ j := by
      rintro rfl
      cases hcell.symm.trans hcell'
      rcases hj with hj | ⟨-, hconcurrent⟩
      · exact (nodup_cons.1 hnodup).1 hj
      · rw [hserial] at hconcurrent
        cases hconcurrent
    rw [if_neg hne]
    refine haccounted.idle j cell' hcell' ?_
    rw [hstage]
    exact hj.imp (mem_cons_of_mem i) fun hj => ⟨rfl, hj.2⟩
  · intro j hj
    rw [hstage]
    exact hj
  · intro _ j _ _ hj hj'
    rw [hstage] at hj
    exact absurd hj hj'
  · rintro - ⟨⟩

theorem serialNext_books (h : Books env r) {remaining : List ℕ}
    (hstage : r.phase.stage = .serial remaining) (cancelPending : Bool) :
    Books env (r.serialNext env cancelPending remaining).1 := by
  cases remaining with
  | nil =>
    simp only [serialNext]
    split_ifs with hconcurrent
    · refine h.finish (fun _ => by rw [hstage]; rfl) fun _ cell hcell hkind => ?_
      obtain ⟨j, hj⟩ := mem_iff_getElem?.1 hcell
      have hmem := mem_concurrent.2 ⟨cell, hj, hkind⟩
      rw [hconcurrent] at hmem
      cases hmem
    · exact startConcurrent_books h hstage
  | cons i rest =>
    simp only [serialNext]
    split_ifs
    · have hcancelled := cancel_books h r.phase.stage r.phase.killed id (Or.inr rfl)
      exact hcancelled.finish (fun hc => by cases hc) fun hc => by cases hc
    · split
      · exact h
      · next cell hcell =>
        have hstart := serialStart_books h hstage hcell
        exact ⟨hstart.accounted, hstart.recorded⟩

theorem serialRecord_books (h : Books env r) {rest : List ℕ}
    (hstage : r.phase.stage = .serialRunning i rest) (hcell : r.phase.cells[i]? = some cell)
    (houtcome : Outcome (r.phase.describe cell.call) cell output)
    (files : ToolFiles) (isCancelled : Bool) (image : Option PreparedImage) :
    Books env (r.serialRecord env files rest cell.call output isCancelled image) := by
  set handle : ToolHandle := { toolCall := cell.call, output := output, image := image } with hhandle
  set r₁ : ToolRun := r.recordToolCompletion env files handle with hr₁
  have hphase : r₁.phase = _ := recordToolCompletion_phase env files handle r
  have hresults := results_recordToolCompletion env files handle r
  have hnodup := h.accounted.remaining_nodup
  rw [hstage] at hnodup
  have hrecorded : ∀ changes, Books env
      { r₁ with
        phase := { r₁.phase with
          pendingConfigChanges := changes
          cancelled := r₁.phase.cancelled || isCancelled
          stage := .serial rest } } := by
    intro changes
    refine h.of_record hcell _ houtcome ?_ hresults (by rw [hphase]) (by rintro ⟨⟩)
    rw [hphase]
    refine advance_of_cells h.accounted rfl rfl ?_ (nodup_cons.1 hnodup).2 ?_
      (fun _ hh => hh) (fun _ hid => Std.ExtTreeSet.mem_insert.2 (Or.inr hid))
      (fun _ hid => Or.inl hid) (fun hc => (Bool.or_eq_false_iff.1 hc).1) ?_ (by rintro - ⟨⟩)
    · rintro j cell' - hj
      rw [hstage]
      exact hj
    · intro j hj
      rw [hstage]
      exact mem_cons_of_mem i hj
    · intro _ j cell' hcell' hj hj'
      rw [hstage] at hj
      have hji : j = i := (mem_cons.1 hj).resolve_right hj'
      subst hji
      cases hcell.symm.trans hcell'
      exact Std.ExtTreeSet.mem_insert.2 (Or.inl (Std.LawfulEqCmp.compare_eq_iff_eq.2 rfl))
  unfold serialRecord
  dsimp only
  cases isCancelled with
  | true =>
    rw [if_pos rfl]
    refine (hrecorded _).finish (fun hc => ?_) fun hc => ?_
    · cases (Bool.or_eq_false_iff.1 hc).2
    · cases (Bool.or_eq_false_iff.1 hc).2
  | false =>
    rw [if_neg Bool.false_ne_true]
    exact hrecorded _

/-! #### Concurrent calls -/

theorem collect_books (h : Books env r) {mode : CollectMode}
    (hstage : r.phase.stage = .collecting mode) {files : ToolFiles}
    (hr' : r.collect env files = some r') : Books env r' := by
  unfold collect at hr'
  split at hr'
  · cases hr'
  · next handle queue hqueue =>
    cases hr'
    obtain ⟨i, cell, hcell, hconcurrent, hcall, houtcome⟩ := h.accounted.queue handle
      (by rw [hqueue]; exact mem_cons_self)
    set r₁ : ToolRun := { r with
      phase := { r.phase with
        queue := queue
        delivered := r.phase.delivered.insert handle.toolCall.id } } with hr₁
    have hphase := recordToolCompletion_phase env files handle r₁
    have hresults := results_recordToolCompletion env files handle r₁
    rw [hcall] at hresults
    have hself : cell.call.id ∈ r.phase.executed.insert cell.call.id :=
      Std.ExtTreeSet.mem_insert.2 (Or.inl (Std.LawfulEqCmp.compare_eq_iff_eq.2 rfl))
    refine h.of_record hcell _ houtcome ?_ hresults (by rw [hphase, hcall]) ?_
    · rw [hphase, hcall]
      refine advance_of_cells h.accounted rfl rfl (fun _ _ _ hj => hj) h.accounted.remaining_nodup
        (fun _ hi => hi) (fun _ hh => ?_)
        (fun _ hid => Std.ExtTreeSet.mem_insert.2 (Or.inr hid)) (fun id hid => ?_) id
        (fun _ _ _ _ hi hi' => absurd hi hi') fun _ hfinished => Or.inl hfinished
      · rw [hqueue]
        exact mem_cons_of_mem _ hh
      · change id ∈ r.phase.delivered.insert handle.toolCall.id at hid
        rw [hcall] at hid
        rcases Std.ExtTreeSet.mem_insert.1 hid with heq | hid
        · rw [← Std.LawfulEqCmp.compare_eq_iff_eq.1 heq]
          exact Or.inr ⟨hself, cell, mem_of_getElem? hcell, hconcurrent, rfl⟩
        · exact Or.inl hid
    · rw [hphase]
      change r.phase.stage ≠ .finished
      rw [hstage]
      rintro ⟨⟩

theorem executed_of_batchComplete (h : Books env r) (hcomplete : r.batchComplete = true) :
    ∀ cell ∈ r.phase.cells, cell.isConcurrent = true → cell.call.id ∈ r.phase.executed := by
  set ids : List String := (r.phase.cells.filter CallCell.isConcurrent).map fun cell => cell.call.id
    with hids
  have hlength : r.phase.concurrent.length = ids.length := by
    unfold ToolPhase.concurrent
    rw [hids, List.length_map, List.length_map, ← countP_eq_length_filter,
      ← countP_eq_length_filter]
    conv_rhs => rw [← zipIdx_map_fst 0 r.phase.cells, countP_map]
    rfl
  have hnodup : ids.Nodup := by
    have hall := h.accounted.nodup
    unfold ToolPhase.calls at hall
    rw [List.map_map] at hall
    exact hall.sublist (filter_sublist.map _)
  have hsubset : r.phase.delivered.toList ⊆ ids := by
    intro id hid
    obtain ⟨-, cell, hcell, hconcurrent, rfl⟩ :=
      h.accounted.delivered id (Std.ExtTreeSet.mem_toList.1 hid)
    exact List.mem_map.2 ⟨cell, mem_filter.2 ⟨hcell, hconcurrent⟩, rfl⟩
  have hle : ids.length ≤ r.phase.delivered.toList.length := by
    rw [← hlength, Std.ExtTreeSet.length_toList]
    exact of_decide_eq_true hcomplete
  have hdistinct : r.phase.delivered.toList.Nodup :=
    Std.ExtTreeSet.distinct_toList.imp fun hne heq =>
      hne (Std.LawfulEqCmp.compare_eq_iff_eq.2 heq)
  have hperm := (subperm_of_subset hdistinct hsubset).perm_of_length_le hle
  intro cell hcell hconcurrent
  have hmem : cell.call.id ∈ ids :=
    List.mem_map.2 ⟨cell, mem_filter.2 ⟨hcell, hconcurrent⟩, rfl⟩
  exact (h.accounted.delivered _ (Std.ExtTreeSet.mem_toList.1 (hperm.mem_iff.2 hmem))).1

theorem recordPanic_books (h : Books env r) (hcell : cell ∈ r.phase.cells)
    (hstage : r.phase.stage ≠ .finished) (files : ToolFiles) :
    Books env (r.recordToolCompletion env files
      (panicToolHandle cell.call (r.phase.describe cell.call))) := by
  obtain ⟨i, hi⟩ := mem_iff_getElem?.1 hcell
  have hphase := recordToolCompletion_phase env files
    (panicToolHandle cell.call (r.phase.describe cell.call)) r
  refine h.of_record hi (failedOutput "tool thread panicked" (r.phase.describe cell.call))
    .panicked ?_ (results_recordToolCompletion env files _ r) (by rw [hphase]; rfl)
    (by rw [hphase]; exact hstage)
  rw [hphase]
  exact advance_of_cells h.accounted rfl rfl (fun _ _ _ hj => hj) h.accounted.remaining_nodup
    (fun _ hi => hi) (fun _ hh => hh) (fun _ hid => Std.ExtTreeSet.mem_insert.2 (Or.inr hid))
    (fun _ hid => Or.inl hid) id (fun _ _ _ _ hi hi' => absurd hi hi')
    fun _ hfinished => Or.inl hfinished

theorem foldl_recordPanic_books (h : Books env r) (hstage : r.phase.stage ≠ .finished)
    (files : ToolFiles) (missing : List ChatToolCall) (hmissing : missing ⊆ r.phase.calls) :
    Books env (missing.foldl (fun r call =>
      r.recordToolCompletion env files (panicToolHandle call (r.phase.describe call))) r) := by
  induction missing generalizing r with
  | nil => exact h
  | cons call missing ih =>
    rw [cons_subset] at hmissing
    obtain ⟨cell, hcell, rfl⟩ := List.mem_map.1 hmissing.1
    have hphase := recordToolCompletion_phase env files
      (panicToolHandle cell.call (r.phase.describe cell.call)) r
    refine ih (recordPanic_books h hcell hstage files) (by rw [hphase]; exact hstage) ?_
    rw [hphase]
    exact hmissing.2

theorem synthesizeMissing_books (h : Books env r) (hstage : r.phase.stage ≠ .finished)
    (files : ToolFiles) : Books env (r.synthesizeMissing env files) := by
  refine foldl_recordPanic_books h hstage files _ fun call hcall => ?_
  exact mem_of_mem_filter (mem_of_mem_filter hcall)

theorem mem_foldl_insert {calls : List ChatToolCall} {executed : Std.ExtTreeSet String} {id : String} :
    id ∈ calls.foldl (fun executed call => executed.insert call.id) executed ↔
      id ∈ executed ∨ ∃ call ∈ calls, call.id = id := by
  induction calls generalizing executed with
  | nil => simp only [foldl_nil, not_mem_nil, false_and, exists_false, or_false]
  | cons call calls ih =>
    rw [foldl_cons, ih, Std.ExtTreeSet.mem_insert, Std.LawfulEqCmp.compare_eq_iff_eq]
    simp only [mem_cons, exists_eq_or_imp]
    tauto

/-- After the results of the calls that were never delivered are synthesized, every concurrent call
counts as executed. -/
theorem executed_of_synthesizeMissing (h : Books env r) (files : ToolFiles) :
    ∀ cell ∈ (r.synthesizeMissing env files).phase.cells, cell.isConcurrent = true →
      cell.call.id ∈ (r.synthesizeMissing env files).phase.executed := by
  obtain ⟨results, hphase⟩ := synthesizeMissing_phase env files r
  rw [hphase]
  intro cell hcell hconcurrent
  by_cases hdelivered : cell.call.id ∈ r.phase.delivered
  · exact mem_foldl_insert.2 (Or.inl (h.accounted.delivered _ hdelivered).1)
  · refine mem_foldl_insert.2 (Or.inr ⟨cell.call, ?_, rfl⟩)
    have hcontains : r.phase.delivered.contains cell.call.id = false := by
      rw [← Bool.not_eq_true, Std.ExtTreeSet.contains_iff_mem]
      exact hdelivered
    rw [mem_filter, mem_filter, hcontains]
    exact ⟨⟨List.mem_map_of_mem hcell, hconcurrent⟩, rfl⟩

theorem endBatch_books (h : Books env r) (mode : CollectMode)
    (hstage : r.phase.stage = .collecting mode)
    (hexecuted : ∀ cell ∈ r.phase.cells, cell.isConcurrent = true →
      cell.call.id ∈ r.phase.executed) : Books env (r.endBatch env) := by
  have hsorted : Books env { r with
      phase := { r.phase with
        toolResults := sortByCallOrder (r.phase.calls.map ChatToolCall.toRecord)
          r.phase.toolResults } } := by
    refine Books.of_advance (g := fun _ cell => cell) h ?_ rfl rfl id
    exact advance_of_cells h.accounted rfl rfl (fun _ _ _ hj => hj) h.accounted.remaining_nodup
      (fun _ hi => hi) (fun _ hh => hh) (fun _ hid => hid) (fun _ hid => Or.inl hid) id
      (fun _ _ _ _ hi hi' => absurd hi hi') fun _ hfinished => Or.inl hfinished
  refine hsorted.finish (fun _ => ?_) fun _ => hexecuted
  change r.phase.stage.remaining = []
  rw [hstage]
  rfl

/-- Every step of the tool phases keeps the books. -/
theorem step_books {cancelPending consumed : Bool} {label : ToolLabel} (h : Books env r)
    (hstep : step env cancelPending label r = some (r', consumed)) : Books env r' := by
  cases label with
  | exec i message | execDie i =>
    simp only [step] at hstep
    split at hstep
    · next hcell =>
      cases hstep
      exact exec_books h hcell rfl _
    · cases hstep
  | wake i cause image =>
    simp only [step] at hstep
    split at hstep
    · next cell hcell =>
      split_ifs at hstep with hwaiting
      rw [map_eq_some_iff] at hstep
      obtain ⟨output, houtput, heq⟩ := hstep
      cases heq
      exact wake_books h hcell hwaiting houtput image
    · cases hstep
  | waitDie i =>
    simp only [step] at hstep
    split at hstep
    · next hcell =>
      cases hstep
      exact waitDie_books h hcell
    · cases hstep
  | serialNext =>
    simp only [step] at hstep
    split at hstep
    · next remaining hstage =>
      rw [← (Prod.mk.inj (some.inj hstep)).1]
      exact serialNext_books h hstage cancelPending
    · cases hstep
  | serialWake cause image files =>
    simp only [step] at hstep
    split at hstep
    · next i rest hstage =>
      split at hstep
      · next cell hcell =>
        rw [map_eq_some_iff] at hstep
        obtain ⟨outcome, houtcome, heq⟩ := hstep
        cases heq
        exact serialRecord_books h hstage hcell (outcome_serialOutcome houtcome) files _ image
      · cases hstep
    · cases hstep
  | collect files =>
    simp only [step] at hstep
    split at hstep
    · next hstage =>
      rw [map_eq_some_iff] at hstep
      obtain ⟨r₁, hr₁, heq⟩ := hstep
      cases heq
      exact collect_books h hstage hr₁
    · next hstage =>
      split_ifs at hstep
      rw [map_eq_some_iff] at hstep
      obtain ⟨r₁, hr₁, heq⟩ := hstep
      cases heq
      exact collect_books h hstage hr₁
    · cases hstep
  | collectCancel =>
    simp only [step] at hstep
    split at hstep
    · split_ifs at hstep
      cases hstep
      exact cancel_books h _ true (by rintro ⟨⟩) (Or.inl ⟨rfl, rfl, rfl⟩)
    · cases hstep
  | endEmptying =>
    simp only [step] at hstep
    split at hstep
    · next hstage hqueue =>
      cases hstep
      refine Books.of_advance (g := fun _ cell => cell) h ?_ rfl rfl (by rintro ⟨⟩)
      refine advance_of_cells h.accounted rfl rfl ?_ nodup_nil ?_ (fun _ hh => hh)
        (fun _ hid => hid) (fun _ hid => Or.inl hid) id ?_ (by rintro - ⟨⟩)
      · rintro j cell - (hj | ⟨hj, -⟩)
        · cases hj
        · cases hj
      · intro i hi
        cases hi
      · intro _ i cell _ hi
        rw [hstage] at hi
        cases hi
    · cases hstep
  | endBatch files =>
    simp only [step] at hstep
    split at hstep
    · cases hstep
    · next mode _ hstage =>
      split_ifs at hstep with hcomplete hclosed
      · cases hstep
        exact endBatch_books h _ hstage (executed_of_batchComplete h hcomplete)
      · cases hstep
        obtain ⟨results, hphase⟩ := synthesizeMissing_phase env files r
        have hne : r.phase.stage ≠ .finished := by
          rw [hstage]
          rintro ⟨⟩
        refine endBatch_books (synthesizeMissing_books h hne files) mode ?_
          (executed_of_synthesizeMissing h files)
        rw [hphase]
        exact hstage
    · cases hstep

/-! #### The start -/

theorem begin_toolCalls (session : SessionState) (requestId turnId : ℕ)
    (toolCalls : List ChatToolCall) :
    (begin env session requestId turnId toolCalls).phase.calls = toolCalls ∧
      (begin env session requestId turnId toolCalls).session.turns[
          (begin env session requestId turnId toolCalls).phase.turnId]?.map Turn.toolCalls =
        session.turns[turnId]?.map Turn.toolCalls := by
  unfold begin
  dsimp only
  rw [broadcastTurnAppended_session, broadcastTurnAppended_phase]
  constructor
  · unfold ToolPhase.calls
    rw [List.map_map]
    exact List.map_id toolCalls
  · refine (congrArg (Option.map Turn.toolCalls)
      (SessionState.get_modifyTurn session turnId turnId _)).trans ?_
    rw [if_pos rfl, Option.map_map]
    rfl

/-- The books agree when the placeholders are seeded. -/
theorem begin_books (session : SessionState) (requestId turnId : ℕ)
    (toolCalls : List ChatToolCall) (hturn : session.turns[turnId]?.isSome = true)
    (hnodup : (toolCalls.map ChatToolCall.id).Nodup) :
    Books env (begin env session requestId turnId toolCalls) := by
  obtain ⟨turn, hturn⟩ := isSome_iff_exists.1 hturn
  have hcells : ∀ {i : ℕ} {cell : CallCell},
      (toolCalls.map fun call => ({ call := call } : CallCell))[i]? = some cell →
      ∃ call, toolCalls[i]? = some call ∧ cell = { call := call } := by
    intro i cell hcell
    rw [List.getElem?_map, map_eq_some_iff] at hcell
    obtain ⟨call, hcall, rfl⟩ := hcell
    exact ⟨call, hcall, rfl⟩
  have hcalls : (toolCalls.map fun call => ({ call := call } : CallCell)).map CallCell.call =
      toolCalls := by
    rw [List.map_map]
    exact List.map_id toolCalls
  unfold begin
  dsimp only
  set descriptions : List String := List.map _ (toolCalls.map ChatToolCall.toRecord) with hdesc
  set r₀ : ToolRun := ToolRun.mk _ _ _ with hr₀
  have hbooks : Books env r₀ := by
    refine ⟨⟨?_, ?_, ?_, ?_, ?_, ?_, ?_, ?_, ?_⟩, List.zipWith SessionState.placeholder
      (toolCalls.map ChatToolCall.toRecord) descriptions, ?_, ?_, ?_, ?_⟩
    · change (((toolCalls.map _).map CallCell.call).map _).Nodup
      rw [hcalls]
      exact hnodup
    · change ((toolCalls.zipIdx.filter _).map Prod.snd).Nodup
      refine List.Nodup.sublist (filter_sublist.map _) ?_
      rw [zipIdx_map_snd]
      exact nodup_range'
    · intro i cell hcell hi
      obtain ⟨call, hcall, rfl⟩ := hcells hcell
      obtain ⟨call', hcall', hserial⟩ := mem_map_filter_zipIdx.1 hi
      cases hcall.symm.trans hcall'
      unfold CallCell.isConcurrent
      rw [hserial]
      rfl
    · intro i cell hcell _
      obtain ⟨call, -, rfl⟩ := hcells hcell
      rfl
    · intro i cell hcell hwaiting
      obtain ⟨call, -, rfl⟩ := hcells hcell
      cases hwaiting
    · intro handle hhandle
      cases hhandle
    · intro id hid
      exact absurd hid Std.ExtTreeSet.not_mem_empty
    · intro _ i cell hcell hserial hi
      obtain ⟨call, hcall, rfl⟩ := hcells hcell
      refine absurd (mem_map_filter_zipIdx.2 ⟨call, hcall, ?_⟩) hi
      unfold CallCell.isConcurrent at hserial
      exact (Bool.not_eq_eq_eq_not.1 hserial).trans rfl
    · rintro - ⟨⟩
    · refine (results_of_modifyTurn (fun _ => List.zipWith SessionState.placeholder
        (toolCalls.map ChatToolCall.toRecord) descriptions) rfl rfl fun _ => rfl).trans ?_
      rw [hturn]
      rfl
    · change _ = ((toolCalls.map _).map CallCell.call).map _
      rw [hcalls, hdesc, zipWith_map_right, zipWith_self, List.map_map, List.map_map]
      rfl
    · intro i cell record hcell _ hmem
      exact absurd hmem Std.ExtTreeSet.not_mem_empty
    · rintro ⟨⟩
  refine ⟨?_, ?_⟩
  · rw [broadcastTurnAppended_phase]
    exact hbooks.accounted
  · rw [results_broadcastTurnAppended, broadcastTurnAppended_phase]
    exact hbooks.recorded

end ToolRun

end Choreo
