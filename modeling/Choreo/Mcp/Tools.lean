import Choreo.Mcp.Client

/-!
# Tools of MCP servers

How the daemon registers the tools of a server and carries over the results of their calls
(`choreo-daemon/src/mcp/mod.rs` and `tool.rs`), against what a server of the announced version
writes. The client asks for one page of tools only. The names of the fields it reads are not those
the version fixes, so schemas, failures and media types are replaced by defaults. The third dispatch
path does not look at failures at all.
-/

namespace Choreo.Mcp

open List

/-! ### What a server writes -/

/-- A tool as its server declares it: the schema of its input is an object. -/
structure ServerTool where
  name : String
  description : Option String
  inputSchema : List (String × Json)

/-- A part of a result. -/
inductive ServerContent
  | text (text : String)
  | image (data mimeType : String)
  | resource (resource : Json)

structure ServerResult where
  content : List ServerContent
  isError : Option Bool

def ServerTool.wire (tool : ServerTool) : Json :=
  .object
    (("name", .string tool.name) ::
      (tool.description.toList.map fun text => ("description", Json.string text)) ++
        [("inputSchema", .object tool.inputSchema)])

/-- A part of a result on the wire. -/
def ServerContent.wire : ServerContent → Json
  | .text shown => .object [("type", .string "text"), ("text", .string shown)]
  | .image data mimeType =>
    .object [("type", .string "image"), ("data", .string data), ("mimeType", .string mimeType)]
  | .resource held => .object [("type", .string "resource"), ("resource", held)]

def ServerResult.wire (result : ServerResult) : Json :=
  .object
    (("content", .array (result.content.map ServerContent.wire)) ::
      result.isError.toList.map fun failed => ("isError", Json.bool failed))

/-- The answer to a request for the first page of tools: the page, and a cursor if there are more. -/
def listWire (cursor : String) (pages : List (List ServerTool)) : Json :=
  .object
    (("tools", .array ((pages.headD []).map ServerTool.wire)) ::
      if 1 < pages.length then [("nextCursor", .string cursor)] else [])

/-! ### Registration -/

/-- A registered tool. -/
structure McpToolWrapper where
  name : String
  group : String
  description : String
  inputSchema : Json
  originalName : String

def McpToolWrapper.new (serverSlug toolName description : String) (inputSchema : Json) :
    McpToolWrapper where
  name := "mcp/" ++ serverSlug ++ "/" ++ toolName
  group := "mcp/" ++ serverSlug
  description := "[MCP " ++ serverSlug ++ "] " ++ description
  inputSchema := inputSchema
  originalName := toolName

/-- The registry: tools by name, and the groups of the servers with their descriptions. -/
structure ToolRegistry where
  tools : Std.ExtTreeMap String McpToolWrapper := ∅
  dynamicGroups : List (String × String) := []

/-- Adds a tool under its name. -/
def ToolRegistry.registerDynamic (registry : ToolRegistry) (tool : McpToolWrapper) :
    ToolRegistry :=
  { registry with tools := registry.tools.insert tool.name tool }

def registerServerTools (slug serverName : String) (listed : Except McpError Reply)
    (registry : ToolRegistry) : ToolRegistry :=
  match listed with
  | .ok (.tools tools) =>
    tools.foldl
      (fun registry tool => registry.registerDynamic
        (.new slug tool.name (tool.description.getD "") tool.inputSchema))
      { registry with
        dynamicGroups :=
          registry.dynamicGroups ++ [("mcp/" ++ slug, "MCP server: " ++ serverName)] }
  | _ => registry

/-! ### Dispatch -/

/-- The packages of the daemon: those of the client, the error texts of parsing, and the decoding
of binary arguments. -/
structure DaemonPackages extends McpPackages where
  parseError : String → String
  fromPostcard : Bytes → Except String Json

inductive ToolError
  | invalidArguments (message : String)
  | postcard (message : String)
  | other (message : String)
deriving DecidableEq, Repr

/-- The form of a tool's output. -/
inductive ToolOutputFormat
  | text
  | json
deriving DecidableEq, Repr

structure ToolOutput where
  content : String
  isError : Bool
  invocationDescription : String
deriving DecidableEq, Repr

variable (packages : DaemonPackages)

/-- An error of the client as text. -/
def McpError.display : McpError → String
  | .spawnFailed message => "failed to spawn subprocess: " ++ message
  | .initializeFailed message => "MCP initialize handshake failed: " ++ message
  | .jsonRpcError code message => "JSON-RPC error: code=" ++ toString code ++ " message=" ++ message
  | .protocolError message => "protocol error: " ++ message
  | .timeout => "tool call timed out"
  | .io message => "I/O error: " ++ message
  | .serverShutdown => "MCP server shut down unexpectedly"

def imageLabel (data mimeType : String) : String :=
  "[Image: " ++ mimeType ++ " (" ++ packages.bytesText data.utf8ByteSize ++ ")]"

/-- The text of a part of a result. An image without a media type is labelled `image/png`. -/
def McpContent.textPart (content : McpContent) : String :=
  match content with
  | .text shown => shown
  | .image data mimeType => imageLabel packages data (mimeType.getD "image/png")
  | .resource held => "[Resource: " ++ packages.toStr held ++ "]"

def mcpResultToTextParts (result : CallToolResult) : List String × Bool :=
  (result.content.map (McpContent.textPart packages), result.isError)

def mcpResultToString (result : CallToolResult) : String :=
  "\n".intercalate (mcpResultToTextParts packages result).1

/-- The arguments of a call as JSON. -/
def parseJsonArgs (argsJson : String) : Except ToolError Json :=
  match packages.fromStr argsJson with
  | none => .error (.invalidArguments (packages.parseError argsJson))
  | some args => .ok args

/-- The arguments of a call as bytes. -/
def parseBinaryArgs (argsBytes : Bytes) : Except ToolError Json :=
  match packages.fromPostcard argsBytes with
  | .error e => .error (.postcard ("invalid binary arguments: " ++ e))
  | .ok args => .ok args

def McpToolWrapper.callWithArgs (tool : McpToolWrapper)
    (callTool : String → Json → Except McpError CallToolResult) (args : Json) :
    Except String CallToolResult :=
  match callTool tool.originalName args with
  | .error e => .error ("MCP tool call '" ++ tool.originalName ++ "' failed: " ++ e.display)
  | .ok result => .ok result

def formatted (format : ToolOutputFormat) (content : String) : String :=
  match format with
  | .text => content
  | .json => packages.toStr (.string content)

variable (tool : McpToolWrapper) (callTool : String → Json → Except McpError CallToolResult)

/-- The path for arguments in JSON. -/
def executeJson (argsJson : String) (format : ToolOutputFormat) : Except ToolError ToolOutput :=
  match parseJsonArgs packages argsJson with
  | .error e => .error e
  | .ok args =>
    match tool.callWithArgs callTool args with
    | .error e => .error (.other e)
    | .ok result =>
      let parts := mcpResultToTextParts packages result
      .ok { content := formatted packages format ("\n".intercalate parts.1)
            isError := parts.2
            invocationDescription := "" }

/-- The path that also streams the text. -/
def executeStreamingJson (argsJson : String) (format : ToolOutputFormat) :
    List String × Except ToolError ToolOutput :=
  match parseJsonArgs packages argsJson with
  | .error e => ([], .error e)
  | .ok args =>
    match tool.callWithArgs callTool args with
    | .error e => ([], .error (.other e))
    | .ok result =>
      let parts := mcpResultToTextParts packages result
      (["\n".intercalate parts.1],
        .ok { content := formatted packages format ("\n".intercalate parts.1)
              isError := parts.2
              invocationDescription := "" })

/-- The path for binary arguments, before its result is encoded. -/
def executePostcard (argsBytes : Bytes) : Except ToolError (Except String String) :=
  match parseBinaryArgs packages argsBytes with
  | .error e => .error e
  | .ok args =>
    match tool.callWithArgs callTool args with
    | .error e => .ok (.error e)
    | .ok result => .ok (.ok (mcpResultToString packages result))

/-! ### What should happen -/

/-- Whatever was registered before, every tool of every page is registered under its name, with the
schema its server declared. -/
def Registers (slug serverName cursor : String) (pages : List (List ServerTool)) : Prop :=
  ∀ registry : ToolRegistry, ∀ page ∈ pages, ∀ declared ∈ page, ∃ registered,
    (registerServerTools slug serverName
        (answerListTools packages.toMcpPackages
          { jsonrpc := "2.0", id := 2, result := some (listWire cursor pages), error := none })
        registry).tools["mcp/" ++ slug ++ "/" ++ declared.name]? = some registered ∧
      registered.originalName = declared.name ∧
        registered.inputSchema = .object declared.inputSchema

variable (content : ServerContent)

/-- The text of a part of a result: an image is labelled with its own media type. -/
def ServerContent.shown : String :=
  match content with
  | .text shown => shown
  | .image data mimeType => imageLabel packages data mimeType
  | .resource held => "[Resource: " ++ packages.toStr held ++ "]"

/-- What a path tells its caller: nothing but a failure, or the text of the result. -/
def ToolOutput.told (output : Except ToolError ToolOutput) : Option String :=
  match output with
  | .error _ => none
  | .ok output => if output.isError then none else some output.content

/-- What the binary path tells its caller. -/
def postcardTold (output : Except ToolError (Except String String)) : Option String :=
  match output with
  | .ok (.ok text) => some text
  | _ => none

/-- What a path should tell its caller, in a form: nothing for a failure, else the parts in order. -/
def ServerResult.told (result : ServerResult) (format : ToolOutputFormat) : Option String :=
  if result.isError = some true then none
  else some (formatted packages format
    ("\n".intercalate (result.content.map (ServerContent.shown packages))))

/-- The client returns a result for the response of the server, the parts of the result are shown as
they are, and every path tells what it should. -/
def CarriesOver (argsJson : String) (argsBytes : Bytes) (result : ServerResult) : Prop :=
  ∃ received,
    answerCallTool packages.toMcpPackages
        { jsonrpc := "2.0", id := 3, result := some result.wire, error := none } =
      .ok (.called received) ∧
    (mcpResultToTextParts packages received).1 =
      result.content.map (ServerContent.shown packages) ∧
    (∀ format, ToolOutput.told
        (executeJson packages tool (fun _ _ => .ok received) argsJson format) =
      result.told packages format) ∧
    (∀ format, ToolOutput.told
        (executeStreamingJson packages tool (fun _ _ => .ok received) argsJson format).2 =
      result.told packages format) ∧
    postcardTold (executePostcard packages tool (fun _ _ => .ok received) argsBytes) =
      result.told packages .text

/-! ### What the client reads -/

theorem mapM_map_of_read {A B C : Type} {write : A → B} {read : B → Option C} {expected : A → C}
    (h : ∀ a, read (write a) = some (expected a)) (items : List A) :
    (items.map write).mapM read = some (items.map expected) := by
  induction items with
  | nil => rfl
  | cons a items ih => simp [h, ih]

/-- The tool the client reads. -/
def ServerTool.received (declared : ServerTool) : McpTool where
  name := declared.name
  description := declared.description
  inputSchema := .null

/-- The part of a result the client reads. -/
def ServerContent.received : McpContent :=
  match content with
  | .text shown => .text shown
  | .image data _ => .image data none
  | .resource held => .resource held

theorem readTool_wire (declared : ServerTool) :
    readTool declared.wire = some declared.received := by
  obtain ⟨name, description, inputSchema⟩ := declared
  rcases description with _ | description <;>
    simp [readTool, ServerTool.wire, ServerTool.received, readStruct, valuesOf, readOption,
      Json.asStr]

/-- The media type of an image is not read. -/
theorem readContent_wire :
    readContent content.wire = some content.received := by
  rcases content with shown | ⟨data, mimeType⟩ | held <;>
    simp [readContent, readTag, ServerContent.wire, ServerContent.received, readStruct, valuesOf,
      valueGet, readOption, Json.asStr]

theorem readCallToolResult_wire (result : ServerResult) :
    readCallToolResult result.wire =
      some { content := result.content.map ServerContent.received, isError := false } := by
  obtain ⟨content, isError⟩ := result
  rcases isError with _ | isError <;>
    simp [readCallToolResult, ServerResult.wire, readStruct, valuesOf,
      mapM_map_of_read readContent_wire]

/-- Only the first page is asked for. -/
theorem answerListTools_wire (packages : McpPackages) (cursor : String)
    (pages : List (List ServerTool)) :
    answerListTools packages
        { jsonrpc := "2.0", id := 2, result := some (listWire cursor pages), error := none } =
      .ok (.tools ((pages.headD []).map ServerTool.received)) := by
  have hget : valueGet "tools" (listWire cursor pages) =
      some (.array ((pages.headD []).map ServerTool.wire)) := by
    by_cases h : 1 < pages.length <;> simp [listWire, valueGet, valuesOf, h]
  simp [answerListTools, hget, Json.asArray, mapM_map_of_read readTool_wire]

/-! ### Registration -/

theorem schema_of_foldl {slug : String} {tools : List McpTool} {registry : ToolRegistry}
    {name : String} {registered : McpToolWrapper}
    (h : (tools.foldl
      (fun registry tool => registry.registerDynamic
        (.new slug tool.name (tool.description.getD "") tool.inputSchema))
      registry).tools[name]? = some registered) :
    registry.tools[name]? = some registered ∨
      ∃ tool ∈ tools, registered.inputSchema = tool.inputSchema := by
  induction tools generalizing registry with
  | nil => exact .inl h
  | cons tool tools ih =>
    rw [foldl_cons] at h
    rcases ih h with hbefore | ⟨other, hmem, hschema⟩
    · rw [ToolRegistry.registerDynamic, Std.ExtTreeMap.getElem?_insert] at hbefore
      split at hbefore
      · obtain rfl : _ = registered := Option.some.inj hbefore
        exact .inr ⟨tool, mem_cons_self, rfl⟩
      · exact .inl hbefore
    · exact .inr ⟨other, mem_cons_of_mem tool hmem, hschema⟩

/-- Registration is right exactly for a server without tools. -/
theorem registers_iff (slug serverName cursor : String) (pages : List (List ServerTool)) :
    Registers packages slug serverName cursor pages ↔ ∀ page ∈ pages, page = [] := by
  constructor
  · intro h page hpage
    by_contra hne
    obtain ⟨declared, hdeclared⟩ := exists_mem_of_ne_nil page hne
    obtain ⟨registered, hfound, -, hschema⟩ := h {} page hpage declared hdeclared
    rw [answerListTools_wire, registerServerTools] at hfound
    rcases schema_of_foldl hfound with hbefore | ⟨tool, htool, hnull⟩
    · simp at hbefore
    · obtain ⟨other, -, rfl⟩ := mem_map.1 htool
      rw [hnull] at hschema
      exact Json.noConfusion hschema
  · intro h registry page hpage declared hdeclared
    rw [h page hpage] at hdeclared
    exact absurd hdeclared not_mem_nil

/-! ### Dispatch -/

theorem imageLabel_inj {data mimeType mimeType' : String}
    (h : imageLabel packages data mimeType = imageLabel packages data mimeType') :
    mimeType = mimeType' := by
  simpa [imageLabel, String.ext_iff] using h

theorem textPart_received_iff :
    content.received.textPart packages = content.shown packages ↔
      ∀ data mimeType, content = .image data mimeType → mimeType = "image/png" := by
  rcases content with shown | ⟨data, mimeType⟩ | held
  · simp [ServerContent.received, McpContent.textPart, ServerContent.shown]
  · constructor
    · rintro h _ _ ⟨rfl, rfl⟩
      exact (imageLabel_inj packages h).symm
    · intro h
      rw [ServerContent.shown, h data mimeType rfl]
      rfl
  · simp [ServerContent.received, McpContent.textPart, ServerContent.shown]

/-- The result the client returns. -/
theorem answerCallTool_wire (result : ServerResult) :
    answerCallTool packages.toMcpPackages
        { jsonrpc := "2.0", id := 3, result := some result.wire, error := none } =
      .ok (.called
        { content := result.content.map ServerContent.received, isError := false }) := by
  simp [answerCallTool, readCallToolResult_wire]

theorem mcpResultToString_received (content : List ServerContent) (isError : Bool)
    (h : ∀ part ∈ content, part.received.textPart packages = part.shown packages) :
    (mcpResultToTextParts packages
        { content := content.map ServerContent.received, isError }).1 =
      content.map (ServerContent.shown packages) := by
  rw [mcpResultToTextParts, map_map]
  exact map_congr_left h

variable {argsJson : String} {args : Json}

theorem told_executeJson (hargs : packages.fromStr argsJson = some args) {result : CallToolResult}
    (hresult : result.isError = false) (format : ToolOutputFormat) :
    ToolOutput.told (executeJson packages tool (fun _ _ => .ok result) argsJson format) =
      some (formatted packages format (mcpResultToString packages result)) := by
  simp [executeJson, parseJsonArgs, hargs, McpToolWrapper.callWithArgs, ToolOutput.told,
    mcpResultToTextParts, mcpResultToString, hresult]

theorem executeStreamingJson_snd (callTool : String → Json → Except McpError CallToolResult)
    (argsJson : String) (format : ToolOutputFormat) :
    (executeStreamingJson packages tool callTool argsJson format).2 =
      executeJson packages tool callTool argsJson format := by
  rw [executeStreamingJson, executeJson]
  rcases parseJsonArgs packages argsJson with e | args
  · rfl
  · rcases hcall : tool.callWithArgs callTool args with e | result <;> simp [hcall]

theorem postcardTold_executePostcard (argsBytes : Bytes) (result : CallToolResult) :
    postcardTold (executePostcard packages tool (fun _ _ => .ok result) argsBytes) =
      match packages.fromPostcard argsBytes with
      | .error _ => none
      | .ok _ => some (mcpResultToString packages result) := by
  rw [executePostcard, parseBinaryArgs]
  rcases packages.fromPostcard argsBytes with e | args <;> rfl

/-- Dispatch is right exactly for results that are no failure, whose images are all `image/png`, if
binary arguments can be decoded. -/
theorem carriesOver_iff (hargs : packages.fromStr argsJson = some args) (argsBytes : Bytes)
    (result : ServerResult) :
    CarriesOver packages tool argsJson argsBytes result ↔
      (∃ args, packages.fromPostcard argsBytes = .ok args) ∧ result.isError ≠ some true ∧
        ∀ data mimeType, .image data mimeType ∈ result.content → mimeType = "image/png" := by
  constructor
  · rintro ⟨received, hanswer, hparts, hjson, -, hpostcard⟩
    rw [answerCallTool_wire] at hanswer
    obtain rfl : _ = received := Reply.called.inj (Except.ok.inj hanswer)
    have hok : result.isError ≠ some true := by
      intro hfailed
      have htold := hjson .text
      rw [told_executeJson packages tool hargs rfl, ServerResult.told, if_pos hfailed] at htold
      exact Option.some_ne_none _ htold
    refine ⟨?_, hok, ?_⟩
    · rw [postcardTold_executePostcard, ServerResult.told, if_neg hok] at hpostcard
      rcases hbytes : packages.fromPostcard argsBytes with e | args
      · rw [hbytes] at hpostcard
        exact absurd hpostcard.symm (Option.some_ne_none _)
      · exact ⟨args, rfl⟩
    · intro data mimeType hmem
      rw [mcpResultToTextParts, map_map] at hparts
      have hpart := map_inj_left.1 hparts _ hmem
      exact (textPart_received_iff packages _).1 hpart data mimeType rfl
  · rintro ⟨⟨bytes, hbytes⟩, hok, himages⟩
    have hparts := mcpResultToString_received packages result.content false
      fun part hpart => (textPart_received_iff packages part).2 fun data mimeType himage =>
        himages data mimeType (himage ▸ hpart)
    have htext : mcpResultToString packages
          { content := result.content.map ServerContent.received, isError := false } =
        "\n".intercalate (result.content.map (ServerContent.shown packages)) := by
      rw [mcpResultToString, hparts]
    have hjson : ∀ format, ToolOutput.told (executeJson packages tool
          (fun _ _ => .ok { content := result.content.map ServerContent.received, isError := false })
          argsJson format) =
        result.told packages format := by
      intro format
      rw [told_executeJson packages tool hargs rfl, htext, ServerResult.told, if_neg hok]
    refine ⟨_, answerCallTool_wire packages result, hparts, hjson, ?_, ?_⟩
    · intro format
      rw [executeStreamingJson_snd, hjson]
    · rw [postcardTold_executePostcard, hbytes, ServerResult.told, if_neg hok, ← htext]
      rfl

/-- Registration is right exactly for a server without tools. Dispatch is right exactly for results
that are no failure and whose images are all `image/png`, if binary arguments can be decoded. -/
theorem faithful_iff (hargs : packages.fromStr argsJson = some args)
    (slug serverName cursor : String) (pages : List (List ServerTool)) (argsBytes : Bytes)
    (result : ServerResult) :
    (Registers packages slug serverName cursor pages ↔ ∀ page ∈ pages, page = []) ∧
      (CarriesOver packages tool argsJson argsBytes result ↔
        (∃ args, packages.fromPostcard argsBytes = .ok args) ∧ result.isError ≠ some true ∧
          ∀ data mimeType, .image data mimeType ∈ result.content → mimeType = "image/png") :=
  ⟨registers_iff packages slug serverName cursor pages,
    carriesOver_iff packages tool hargs argsBytes result⟩

/-! ### A server with one tool -/

namespace Sample

/-- Packages that read the empty object. Binary arguments are never decoded: `postcard` does not
describe its data, and a JSON value is read by what the data say. -/
def daemonPackages : DaemonPackages where
  fromStr text := if text = "\x7b\x7d" then some (.object []) else none
  errorText expected _ := expected
  toStr _ := ""
  bytesText size := toString size ++ " B"
  parseError text := text
  fromPostcard _ := .error "This is a feature that postcard will never implement"

/-- A tool for queries. -/
def query : ServerTool where
  name := "query"
  description := some "Runs a query."
  inputSchema := [("type", .string "object"), ("required", .array [.string "sql"])]

/-- A query that failed. -/
def failed : ServerResult where
  content := [.text "no such table: users"]
  isError := some true

def registered : McpToolWrapper := .new "db" "query" "Runs a query." .null

theorem faithful_iff_failed :
    (Registers daemonPackages "db" "Database" "" [[query]] ↔ ∀ page ∈ [[query]], page = []) ∧
      (CarriesOver daemonPackages registered "\x7b\x7d" [] failed ↔
        (∃ args, daemonPackages.fromPostcard [] = .ok args) ∧ failed.isError ≠ some true ∧
          ∀ data mimeType, .image data mimeType ∈ failed.content → mimeType = "image/png") :=
  @faithful_iff daemonPackages registered "\x7b\x7d" (.object []) rfl "db" "Database" "" [[query]] []
    failed

/-- The tool is registered without its schema, and the failed query is carried over as an output. -/
theorem not_faithful_failed :
    ¬ Registers daemonPackages "db" "Database" "" [[query]] ∧
      ¬ CarriesOver daemonPackages registered "\x7b\x7d" [] failed := by
  constructor
  · rw [registers_iff]
    intro h
    exact cons_ne_nil _ _ (h _ (mem_singleton_self _))
  · rw [carriesOver_iff daemonPackages registered rfl]
    rintro ⟨-, hok, -⟩
    exact hok rfl

end Sample

end Choreo.Mcp
