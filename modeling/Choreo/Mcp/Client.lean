import Choreo.Library.Runs
import Choreo.Mcp.Protocol

/-!
# The client of an MCP server

The client of one tool server (`choreo-mcp/src/transport.rs` and `client.rs`). A thread reads the
lines of the server and puts what reads as a response into a channel. A call sends a request under
a fresh id and takes responses from the channel until one has its id, or until its time is over.
Responses that come later stay in the channel.

A server request with a numeric id reads as a response without result and error. If its id is the
id of the request that waits, it ends the call.
-/

namespace Choreo.Mcp

open List Option

/-! ### Requests and replies -/

/-- What a call asks for. -/
inductive Request
  | initializeRequest
  | listTools
  | callTool (name : String) (arguments : Option Json)

/-- What a call returns. -/
inductive Reply
  | initialized (serverName serverVersion : String)
  | tools (tools : List McpTool)
  | called (result : CallToolResult)

variable (packages : McpPackages)

def textOr (name default : String) (value : Json) : String :=
  ((valueGet name value).bind Json.asStr).getD default

variable (response : JsonRpcResponse)

/-- What `spawn` makes of the response to its handshake. -/
def answerInitialize : Except McpError Reply :=
  match response.error, response.result with
  | some err, _ =>
    .error (.initializeFailed
      ("initialize failed: code=" ++ toString err.code ++ " message=" ++ err.message))
  | none, none => .error (.initializeFailed "initialize response missing result")
  | none, some result =>
    let serverInfo := (valueGet "serverInfo" result).getD .null
    .ok (.initialized (textOr "name" "unknown" serverInfo) (textOr "version" "0.0.0" serverInfo))

def answerListTools : Except McpError Reply :=
  match response.error, response.result with
  | some err, _ => .error (.jsonRpcError err.code err.message)
  | none, none => .error (.protocolError "tools/list response missing result")
  | none, some result =>
    let tools := (valueGet "tools" result).getD (.array [])
    match tools.asArray.bind (·.mapM readTool) with
    | none => .error (.protocolError
        ("invalid tools/list result: " ++ packages.errorText "Vec<McpTool>" tools))
    | some tools => .ok (.tools tools)

def answerCallTool : Except McpError Reply :=
  match response.error, response.result with
  | some err, _ => .error (.jsonRpcError err.code err.message)
  | none, none => .error (.protocolError "tools/call response missing result")
  | none, some result =>
    match readCallToolResult result with
    | none => .error (.protocolError
        ("invalid tools/call result: " ++ packages.errorText "CallToolResult" result))
    | some result => .ok (.called result)

/-- What a call makes of its response. -/
def answer : Request → JsonRpcResponse → Except McpError Reply
  | .initializeRequest => answerInitialize
  | .listTools => answerListTools packages
  | .callTool _ _ => answerCallTool packages

/-! ### The client -/

/-- A response in the channel, with the line it was read from. -/
structure Received where
  line : String
  response : JsonRpcResponse

/-- A finished call: its id, what it asked for, what it returned, and the line it took from the
channel, if it took one. -/
structure Finished where
  id : ℕ
  request : Request
  outcome : Except McpError Reply
  taken : Option String

/-- The client: the channels its reader thread fills, the next id, the call that waits, and whether
the handshake succeeded. Issued ids and finished calls are kept for what is said about runs. -/
structure ClientState where
  responses : List Received := []
  notifications : List JsonRpcNotification := []
  nextId : ℕ := 3
  waiting : Option (ℕ × Request) := some (1, .initializeRequest)
  ready : Bool := false
  issued : List ℕ := [1]
  finished : List Finished := []

/-- What can happen: the thread reads a line of the server; a call sends its request; sending fails;
the waiting call takes a response from the channel; its time is over; or the channel is closed. -/
inductive Event
  | line (text : String)
  | start (request : Request)
  | refuse (request : Request) (message : String)
  | receive
  | timeout
  | close

variable (s : ClientState) (line : String)

/-- The reader thread sorts a line: what reads as a response goes to one channel, what reads as a
notification to the other, and the rest is dropped. -/
def route : ClientState :=
  match packages.fromStr (trim line) with
  | none => s
  | some value =>
    match readResponse value with
    | some response => { s with responses := s.responses ++ [⟨line, response⟩] }
    | none =>
      match readNotification value with
      | some notification => { s with notifications := s.notifications ++ [notification] }
      | none => s

/-- The waiting call returns. A failed handshake leaves no client. -/
def finish (call : ℕ × Request) (outcome : Except McpError Reply)
    (taken : Option String) : ClientState :=
  { s with
    waiting := none
    ready := match call.2 with
      | .initializeRequest => outcome.isOk
      | _ => s.ready
    finished := s.finished ++ [⟨call.1, call.2, outcome, taken⟩] }

/-- Takes the next id. The counter has 64 bits. -/
def takeId : ClientState :=
  { s with nextId := (s.nextId + 1) % 2 ^ 64, issued := s.issued ++ [s.nextId] }

/-- The waiting call takes a response from the channel: it returns if the response has its id, and
drops the response otherwise. -/
def recvResponse (call : ℕ × Request) : Option ClientState :=
  match s.responses with
  | [] => none
  | received :: rest =>
    if received.response.id = call.1 then
      some (finish { s with responses := rest } call (answer packages call.2 received.response)
        (some received.line))
    else some { s with responses := rest }

/-- What happens at an event. Calls follow one another, the handshake comes first. -/
def step (event : Event) (s : ClientState) : Option ClientState :=
  match event with
  | .line text => some (route packages s text)
  | .start request =>
    if s.ready ∧ s.waiting.isNone then
      some { takeId s with notifications := [], waiting := some (s.nextId, request) }
    else none
  | .refuse request message =>
    if s.ready ∧ s.waiting.isNone then
      some (finish (takeId s) (s.nextId, request) (.error (.io message)) none)
    else none
  | .receive => s.waiting.bind (recvResponse packages s)
  | .timeout => s.waiting.map fun call => finish s call (.error .timeout) none
  | .close =>
    if s.responses.isEmpty then
      s.waiting.map fun call => finish s call (.error .serverShutdown) none
    else none

/-! ### Correlation -/

/-- A line is a JSON-RPC response to a request: it has no method, it carries a result or an error,
and its id is the id of the request. -/
def IsResponseTo (id : ℕ) : Prop :=
  ∃ value, packages.fromStr (trim line) = some value ∧ valueGet "method" value = none ∧
    ((valueGet "result" value).isSome ∨ (valueGet "error" value).isSome) ∧
      (valueGet "id" value).bind asU64 = some id

/-- The outcomes that carry the payload of a line: a reply, or an error of the server. -/
def Answered : Except McpError Reply → Prop
  | .ok _ | .error (.jsonRpcError _ _) => True
  | .error _ => False

def AnsweredBy (id : ℕ) (request : Request) (outcome : Except McpError Reply)
    (taken : Option String) : Prop :=
  ∃ line, taken = some line ∧ IsResponseTo packages line id ∧
    ∃ value response, packages.fromStr (trim line) = some value ∧
      readResponse value = some response ∧ outcome = answer packages request response

/-- Nobody takes a line with a method. -/
def NoMethod (taken : Option String) : Prop :=
  ∀ line value, taken = some line → packages.fromStr (trim line) = some value →
    valueGet "method" value = none

/-- A call that returns a payload returns what a response to its own request says, no call takes a
line with a method, and no two requests have the same id. -/
structure Correlated (s : ClientState) : Prop where
  issued : s.issued.Nodup
  payload : ∀ call ∈ s.finished, Answered call.outcome →
    AnsweredBy packages call.id call.request call.outcome call.taken
  noMethod : ∀ call ∈ s.finished, NoMethod packages call.taken

/-- A step is sound if the line that the waiting call finds under its own id has no method and is not
an array, of which the call would return a payload, and if the next id is fresh when a request is
sent. -/
def Sound (event : Event) (s : ClientState) : Prop :=
  match event with
  | .start _ | .refuse _ _ => s.nextId ∉ s.issued
  | .receive => ∀ call received rest value, s.waiting = some call →
      s.responses = received :: rest → received.response.id = call.1 →
        packages.fromStr (trim received.line) = some value →
          valueGet "method" value = none ∧
            (value.asArray.isSome → ¬ Answered (answer packages call.2 received.response))
  | .line _ | .timeout | .close => True

/-- What holds of every state: a response in the channel was read from its line, and the waiting
request and the finished ones have issued ids. -/
structure Tracked (s : ClientState) : Prop where
  responses : ∀ received ∈ s.responses, ∃ value,
    packages.fromStr (trim received.line) = some value ∧
      readResponse value = some received.response
  waiting : ∀ call, s.waiting = some call → call.1 ∈ s.issued
  finished : ∀ call ∈ s.finished, call.id ∈ s.issued

/-! ### What a step can do -/

variable {packages} {s s' : ClientState} {event : Event}

theorem route_issued : (route packages s line).issued = s.issued := by
  rw [route]
  split
  · rfl
  · split
    · rfl
    · split <;> rfl

theorem route_finished : (route packages s line).finished = s.finished := by
  rw [route]
  split
  · rfl
  · split
    · rfl
    · split <;> rfl

theorem route_waiting : (route packages s line).waiting = s.waiting := by
  rw [route]
  split
  · rfl
  · split
    · rfl
    · split <;> rfl

theorem route_responses {line : String} {received : Received}
    (h : received ∈ (route packages s line).responses) :
    received ∈ s.responses ∨ (received.line = line ∧ ∃ value,
      packages.fromStr (trim line) = some value ∧
        readResponse value = some received.response) := by
  rw [route] at h
  split at h
  · exact .inl h
  · next value hvalue =>
    split at h
    · next response hresponse =>
      rcases mem_append.1 h with h | h
      · exact .inl h
      · obtain rfl := mem_singleton.1 h
        exact .inr ⟨rfl, value, hvalue, hresponse⟩
    · split at h <;> exact .inl h

/-- What a step can do: a line is sorted; an idle client sends a request, or fails to; the waiting
call takes the first response, which is for it or not; or the waiting call returns without one. -/
theorem step_cases (h : step packages event s = some s') :
    (∃ line, event = .line line ∧ s' = route packages s line) ∨
    (∃ request, event = .start request ∧ s.waiting = none ∧
      s' = { takeId s with notifications := [], waiting := some (s.nextId, request) }) ∨
    (∃ request message, event = .refuse request message ∧ s.waiting = none ∧
      s' = finish (takeId s) (s.nextId, request) (.error (.io message)) none) ∨
    (∃ call received rest, event = .receive ∧ s.waiting = some call ∧
      s.responses = received :: rest ∧ received.response.id = call.1 ∧
        s' = finish { s with responses := rest } call (answer packages call.2 received.response)
          (some received.line)) ∨
    (∃ call received rest, event = .receive ∧ s.waiting = some call ∧
      s.responses = received :: rest ∧ received.response.id ≠ call.1 ∧
        s' = { s with responses := rest }) ∨
    ∃ call e, (event = .timeout ∨ event = .close) ∧ s.waiting = some call ∧
      ¬ Answered (.error e) ∧ s' = finish s call (.error e) none := by
  rcases event with line | request | ⟨request, message⟩ | _ | _ | _
  · exact .inl ⟨line, rfl, (some.inj h).symm⟩
  · simp only [step] at h
    split_ifs at h with hready
    exact .inr (.inl ⟨request, rfl, isNone_iff_eq_none.1 hready.2,
      (some.inj h).symm⟩)
  · simp only [step] at h
    split_ifs at h with hready
    exact .inr (.inr (.inl ⟨request, message, rfl, isNone_iff_eq_none.1 hready.2,
      (some.inj h).symm⟩))
  · obtain ⟨call, hcall, hrecv⟩ := bind_eq_some_iff.1 h
    rw [recvResponse] at hrecv
    split at hrecv
    · exact nomatch hrecv
    · next received rest hresponses =>
      split_ifs at hrecv with hid
      · exact .inr (.inr (.inr (.inl ⟨call, received, rest, rfl, hcall, hresponses, hid,
          (some.inj hrecv).symm⟩)))
      · exact .inr (.inr (.inr (.inr (.inl ⟨call, received, rest, rfl, hcall, hresponses, hid,
          (some.inj hrecv).symm⟩))))
  · obtain ⟨call, hcall, rfl⟩ := map_eq_some_iff.1 h
    exact .inr (.inr (.inr (.inr (.inr ⟨call, .timeout, .inl rfl, hcall, id, rfl⟩))))
  · simp only [step] at h
    split_ifs at h
    obtain ⟨call, hcall, rfl⟩ := map_eq_some_iff.1 h
    exact .inr (.inr (.inr (.inr (.inr ⟨call, .serverShutdown, .inr rfl, hcall, id, rfl⟩))))

/-! ### Steps and correlation -/

theorem carries_of_answer {request : Request} {response : JsonRpcResponse}
    (h : Answered (answer packages request response)) :
    response.result.isSome ∨ response.error.isSome := by
  rcases response with ⟨jsonrpc, id, _ | result, _ | error⟩
  · rcases request with _ | _ | _ <;> exact h.elim
  all_goals simp

theorem isSome_of_readOption {A : Type} {read : Json → Option A} {value : Option Json}
    {result : Option A} (h : readOption read value = some result) (hresult : result.isSome) :
    value.isSome := by
  rcases value with _ | value
  · cases h
    cases hresult
  · rfl

theorem carries_of_answered {request : Request} {value : Json} {response : JsonRpcResponse}
    (harray : ¬ value.asArray.isSome) (hread : readResponse value = some response)
    (h : Answered (answer packages request response)) :
    ((valueGet "result" value).isSome ∨ (valueGet "error" value).isSome) ∧
      (valueGet "id" value).bind asU64 = some response.id := by
  have hcarries := carries_of_answer h
  rcases value with _ | _ | _ | _ | items | entries
  case array => exact absurd rfl harray
  case object =>
    have hfield : ∀ name : String, (valuesOf name entries).getLast? =
        valueGet name (.object entries) := fun _ => rfl
    rw [readResponse] at hread
    split at hread
    · next jsonrpc id result error hstruct =>
      simp only [readStruct, mapM_cons, mapM_nil, Option.pure_def, Option.bind_eq_bind,
        Option.bind_eq_some_iff, ite_none_left_eq_some, hfield] at hstruct
      obtain ⟨_, -, _, ⟨_, ⟨-, hid⟩, _, ⟨_, ⟨-, hresult⟩, _, ⟨_, ⟨-, herror⟩, _, ⟨⟩, ⟨⟩⟩, ⟨⟩⟩, ⟨⟩⟩,
        hfields⟩ := hstruct
      cases hfields
      split at hread
      · next jsonrpc' id' result' error' _ hid' hresult' herror' =>
        cases hread
        rw [some.inj hid, some.inj hresult, some.inj herror, bind_some]
        refine ⟨hcarries.imp (fun h => ?_) (fun h => ?_), hid'⟩
        · exact isSome_of_readOption hresult' h
        · exact isSome_of_readOption herror' h
      · cases hread
    · cases hread
  all_goals cases hread


theorem correlated_congr {t : ClientState} (hissued : t.issued = s.issued)
    (hfinished : t.finished = s.finished) : Correlated packages t ↔ Correlated packages s := by
  constructor
  · rintro ⟨h₁, h₂, h₃⟩
    rw [hissued] at h₁
    rw [hfinished] at h₂ h₃
    exact ⟨h₁, h₂, h₃⟩
  · rintro ⟨h₁, h₂, h₃⟩
    rw [← hissued] at h₁
    rw [← hfinished] at h₂ h₃
    exact ⟨h₁, h₂, h₃⟩

theorem correlated_takeId :
    Correlated packages (takeId s) ↔ Correlated packages s ∧ s.nextId ∉ s.issued := by
  have hnodup : (takeId s).issued.Nodup ↔ s.issued.Nodup ∧ s.nextId ∉ s.issued := by
    rw [takeId, nodup_append]
    simp only [nodup_singleton, true_and, mem_singleton, forall_eq]
    exact and_congr_right fun _ => ⟨fun h hmem => h _ hmem rfl, fun h a ha hEq => h (hEq ▸ ha)⟩
  constructor
  · rintro ⟨h₁, h₂, h₃⟩
    exact ⟨⟨(hnodup.1 h₁).1, h₂, h₃⟩, (hnodup.1 h₁).2⟩
  · rintro ⟨⟨h₁, h₂, h₃⟩, hfresh⟩
    exact ⟨hnodup.2 ⟨h₁, hfresh⟩, h₂, h₃⟩

theorem correlated_finish {call : ℕ × Request} {outcome : Except McpError Reply}
    {taken : Option String} :
    Correlated packages (finish s call outcome taken) ↔
      Correlated packages s ∧ (Answered outcome → AnsweredBy packages call.1 call.2 outcome taken) ∧
        NoMethod packages taken := by
  constructor
  · rintro ⟨h₁, h₂, h₃⟩
    refine ⟨⟨h₁, fun c hc => h₂ c (mem_append_left _ hc),
      fun c hc => h₃ c (mem_append_left _ hc)⟩, ?_, ?_⟩
    · exact h₂ ⟨call.1, call.2, outcome, taken⟩ (mem_append_right _ mem_cons_self)
    · exact h₃ ⟨call.1, call.2, outcome, taken⟩ (mem_append_right _ mem_cons_self)
  · rintro ⟨⟨h₁, h₂, h₃⟩, hpayload, hresponse⟩
    refine ⟨h₁, fun c hc => ?_, fun c hc => ?_⟩
    · rcases mem_append.1 hc with hc | hc
      · exact h₂ c hc
      · obtain rfl := mem_singleton.1 hc
        exact hpayload
    · rcases mem_append.1 hc with hc | hc
      · exact h₃ c hc
      · obtain rfl := mem_singleton.1 hc
        exact hresponse

theorem correlated_finish_none {call : ℕ × Request} {e : McpError}
    (he : ¬ Answered (.error e)) :
    Correlated packages (finish s call (.error e) none) ↔ Correlated packages s := by
  rw [correlated_finish]
  exact and_iff_left ⟨fun h => absurd h he, fun _ _ h => nomatch h⟩

theorem tracked_step (hs : Tracked packages s) (h : step packages event s = some s') :
    Tracked packages s' := by
  obtain ⟨hresponses, hwaiting, hfinished⟩ := hs
  have hgrow : ∀ id, id ∈ s.issued → id ∈ s.issued ++ [s.nextId] :=
    fun id hid => mem_append_left _ hid
  have hclosed {t : ClientState} {call : ℕ × Request} (hcall : call.1 ∈ t.issued)
      (ht : ∀ c ∈ t.finished, c.id ∈ t.issued) (outcome : Except McpError Reply)
      (taken : Option String) :
      ∀ c ∈ (finish t call outcome taken).finished, c.id ∈ t.issued := by
    intro c hc
    rw [finish] at hc
    rcases mem_append.1 hc with hc | hc
    · exact ht c hc
    · obtain rfl := mem_singleton.1 hc
      exact hcall
  rcases step_cases h with ⟨line, -, rfl⟩ | ⟨request, -, hidle, rfl⟩ |
    ⟨request, message, -, hidle, rfl⟩ | ⟨call, received, rest, -, hcall, hlist, -, rfl⟩ |
    ⟨call, received, rest, -, hcall, hlist, -, rfl⟩ | ⟨call, e, -, hcall, -, rfl⟩
  · refine ⟨fun received hreceived => ?_, fun call hcall => ?_, fun call hcall => ?_⟩
    · rcases route_responses hreceived with hold | ⟨hline, hread⟩
      · exact hresponses received hold
      · rw [hline]
        exact hread
    · rw [route_waiting] at hcall
      rw [route_issued]
      exact hwaiting call hcall
    · rw [route_finished] at hcall
      rw [route_issued]
      exact hfinished call hcall
  · refine ⟨hresponses, fun call hcall => ?_, fun call hcall => hgrow _ (hfinished call hcall)⟩
    cases hcall
    exact mem_append_right _ mem_cons_self
  · refine ⟨hresponses, fun call hcall => (nomatch hcall), ?_⟩
    exact hclosed (t := takeId s) (mem_append_right _ mem_cons_self)
      (fun c hc => hgrow _ (hfinished c hc)) _ _
  · refine ⟨fun r hr => hresponses r ?_, fun call hcall => (nomatch hcall), ?_⟩
    · rw [hlist]
      exact mem_cons_of_mem _ hr
    · exact hclosed (hwaiting call hcall) hfinished _ _
  · refine ⟨fun r hr => hresponses r ?_, hwaiting, hfinished⟩
    rw [hlist]
    exact mem_cons_of_mem _ hr
  · refine ⟨hresponses, fun call hcall => (nomatch hcall), ?_⟩
    exact hclosed (hwaiting call hcall) hfinished _ _

/-- A step keeps correlation exactly if it is sound. -/
theorem correlated_step (hs : Tracked packages s) (h : step packages event s = some s') :
    Correlated packages s' ↔ Correlated packages s ∧ Sound packages event s := by
  rcases step_cases h with ⟨line, rfl, rfl⟩ | ⟨request, rfl, -, rfl⟩ |
    ⟨request, message, rfl, -, rfl⟩ | ⟨call, received, rest, rfl, hcall, hlist, hid, rfl⟩ |
    ⟨call, received, rest, rfl, hcall, hlist, hid, rfl⟩ | ⟨call, e, hevent, -, he, rfl⟩
  · rw [correlated_congr (route_issued line) (route_finished line)]
    exact (and_iff_left trivial).symm
  · have hsame : Correlated packages
        { takeId s with notifications := [], waiting := some (s.nextId, request) } ↔
          Correlated packages (takeId s) := correlated_congr rfl rfl
    exact hsame.trans correlated_takeId
  · rw [correlated_finish_none (by simp [Answered]), correlated_takeId, Sound]
  · obtain ⟨value, hvalue, hresponse⟩ := hs.responses received (by rw [hlist]; exact .head _)
    have hdrop : Correlated packages { s with responses := rest } ↔ Correlated packages s :=
      correlated_congr rfl rfl
    rw [correlated_finish, hdrop, Sound]
    refine and_congr_right fun _ => ⟨fun hok call' received' rest' value' hcall' hlist' _ hvalue' =>
      ⟨?_, fun harray hanswered => ?_⟩, fun hsound => ⟨fun hanswered => ?_, ?_⟩⟩
    · obtain ⟨rfl, -⟩ := cons.inj (hlist.symm.trans hlist')
      exact hok.2 _ _ rfl hvalue'
    · obtain rfl := some.inj (hcall.symm.trans hcall')
      obtain ⟨rfl, -⟩ := cons.inj (hlist.symm.trans hlist')
      obtain ⟨_, ⟨⟩, ⟨value'', hvalue'', -, hcarries, -⟩, -⟩ := hok.1 hanswered
      obtain rfl := some.inj (hvalue'.symm.trans hvalue'')
      rcases value' with _ | _ | _ | _ | _ | _ <;> simp [Json.asArray, valueGet] at harray hcarries
    · obtain ⟨hmethod, harray⟩ := hsound call received rest value hcall hlist hid hvalue
      refine ⟨received.line, rfl, ⟨value, hvalue, hmethod, ?_⟩, value, received.response, hvalue,
        hresponse, rfl⟩
      rw [← hid]
      exact carries_of_answered (fun h => harray h hanswered) hresponse hanswered
    · rintro _ value' ⟨⟩ hvalue'
      obtain rfl := some.inj (hvalue.symm.trans hvalue')
      exact (hsound call received rest value hcall hlist hid hvalue).1
  · have hdrop : Correlated packages { s with responses := rest } ↔ Correlated packages s :=
      correlated_congr rfl rfl
    rw [hdrop, Sound]
    refine (and_iff_left fun call' received' rest' _ hcall' hlist' hid' => ?_).symm
    obtain rfl := some.inj (hcall.symm.trans hcall')
    obtain ⟨rfl, -⟩ := cons.inj (hlist.symm.trans hlist')
    exact absurd hid' hid
  · rw [correlated_finish_none he]
    rcases hevent with rfl | rfl <;> exact (and_iff_left trivial).symm

/-- After every run of the client, every call that returned a payload or took a line was answered by
a JSON-RPC response to its own request, and no two requests had the same id, exactly if every step
of the run was sound. -/
theorem correlated_iff_sound (packages : McpPackages) (events : List Event) (s : ClientState)
    (hrun : StepSystem.run (step packages) events {} = some s) :
    Correlated packages s ↔ StepSystem.Along (step packages) (Sound packages) events {} := by
  have hinit : Tracked packages {} :=
    ⟨by simp, by rintro call ⟨rfl⟩; exact mem_cons_self, by simp⟩
  have hstart : Correlated packages {} := ⟨nodup_singleton 1, by simp, by simp⟩
  have hall := StepSystem.holds_iff_along (G := fun _ _ => True)
    (fun _ _ _ hs _ h => tracked_step hs h) (fun _ _ _ hs _ h => correlated_step hs h) hinit
    (StepSystem.Along.of_labels fun _ _ _ => trivial) hrun
  rw [hall]
  exact and_iff_right hstart

/-! ### A server that asks back -/

namespace Sample

/-- The response to the handshake. -/
def greetingLine : String := "\x7b\"jsonrpc\":\"2.0\",\"id\":1,\"result\":\x7b\x7d\x7d"

/-- A request of the server under the id of the first request after the handshake. -/
def pingLine : String := "\x7b\"jsonrpc\":\"2.0\",\"id\":3,\"method\":\"ping\"\x7d"

/-- The response to the first request after the handshake. -/
def toolsLine : String := "\x7b\"jsonrpc\":\"2.0\",\"id\":3,\"result\":\x7b\x7d\x7d"

def message (id : String) (field : String × Json) : Json :=
  .object [("jsonrpc", .string "2.0"), ("id", .number id), field]

/-- The packages on the three lines. -/
def onLines : McpPackages where
  fromStr text :=
    if text = greetingLine then some (message "1" ("result", .object []))
    else if text = pingLine then some (message "3" ("method", .string "ping"))
    else if text = toolsLine then some (message "3" ("result", .object []))
    else none
  errorText type _ := "invalid type: " ++ type
  toStr _ := ""
  bytesText n := toString n ++ " B"

/-- The server answers the handshake and asks back while the list of tools is awaited. -/
def askedBack : List Event :=
  [.line greetingLine, .receive, .start .listTools, .line pingLine, .receive]

/-- The request of the server ends the call, so not every call is answered by a response to it. -/
theorem not_correlated_askedBack :
    ¬ ∀ (events : List Event) (s : ClientState),
      StepSystem.run (step onLines) events {} = some s → Correlated onLines s := by
  intro h
  have hrun : ∃ s, StepSystem.run (step onLines) askedBack {} = some s ∧
      ∃ call ∈ s.finished, call.taken = some pingLine := by
    exact ⟨_, rfl, _, mem_append_right _ mem_cons_self, rfl⟩
  obtain ⟨s, hs, call, hcall, htaken⟩ := hrun
  have hmethod := (h askedBack s hs).noMethod call hcall pingLine
    (message "3" ("method", .string "ping")) htaken rfl
  exact nomatch hmethod

/-- The handshake, then a call that the server answers. -/
def answered : List Event :=
  [.line greetingLine, .receive, .start .listTools, .line toolsLine, .receive]

theorem correlated_iff_sound_answered :
    ∃ s, StepSystem.run (step onLines) answered {} = some s ∧
      (Correlated onLines s ↔
        StepSystem.Along (step onLines) (Sound onLines) answered {}) :=
  ⟨_, rfl, correlated_iff_sound onLines answered _ rfl⟩

end Sample

end Choreo.Mcp
