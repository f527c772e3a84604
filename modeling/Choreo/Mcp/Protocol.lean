import Mathlib.Algebra.Group.Nat.Defs
import Choreo.Protocols.Chat

/-!
# Messages of the MCP client

What the client of a tool server reads from JSON (`choreo-mcp/src/protocol.rs` and `error.rs`):
responses and notifications of JSON-RPC, the tools of a server, and the result of a tool call. The
reading is derived: a structure is read from an object by the names of its fields, or from an array
by their order; fields that are not named are ignored; a missing field with a default is its
default. The names are those of the Rust fields.

## Main definitions

* `Mcp.readStruct`: the fields of a derived structure.
* `Mcp.JsonRpcResponse`, `Mcp.readResponse`: responses.
* `Mcp.McpTool`, `Mcp.CallToolResult`, `Mcp.McpContent` and their reading.
* `Mcp.McpError`: the errors of the client.
-/

namespace Choreo.Mcp

/-- The packages the client uses: reading a line as JSON, the text of an error for a value that
does not have the shape of a type, writing a value, and writing a size. -/
structure McpPackages where
  fromStr : String → Option Json
  errorText : String → Json → String
  toStr : Json → String
  bytesText : ℕ → String

/-! ### Derived reading -/

/-- The values that an object has under a name. -/
def valuesOf (name : String) (entries : List (String × Json)) : List Json :=
  (entries.filter fun entry => entry.1 == name).map Prod.snd

/-- The value of a field of a JSON value; in an object the last entry of a name counts. -/
def valueGet (name : String) : Json → Option Json
  | .object entries => (valuesOf name entries).getLast?
  | _ => none

/-- The fields of a structure, given by their names and whether they have a default. When a text is
read, a field that stands twice is an error; a value keeps the last one. An array gives the fields in
order and may end before fields with a default. -/
def readStruct (fromText : Bool) (fields : List (String × Bool)) :
    Json → Option (List (Option Json))
  | .object entries =>
    fields.mapM fun field =>
      let values := valuesOf field.1 entries
      if fromText && decide (1 < values.length) then none else some values.getLast?
  | .array items =>
    if items.length ≤ fields.length ∧ (fields.drop items.length).all (·.2) then
      some (items.map some ++ List.replicate (fields.length - items.length) none)
    else none
  | _ => none

def readOption {A : Type} (read : Json → Option A) : Option Json → Option (Option A)
  | none | some .null => some none
  | some value => (read value).map some

/-- The natural number that decimal digits stand for. -/
def decimal (digits : List Char) : ℕ :=
  digits.foldl (fun n c => 10 * n + (c.toNat - '0'.toNat)) 0

/-- A number without sign, fraction and exponent that fits in 64 bits. -/
def asU64 : Json → Option ℕ
  | .number text =>
    let digits := text.toList
    if digits ≠ [] ∧ digits.all Char.isDigit ∧ decimal digits < 2 ^ 64 then some (decimal digits)
    else none
  | _ => none

/-- A number without fraction and exponent that fits in 64 bits with a sign. -/
def asI64 : Json → Option ℤ
  | .number text =>
    match text.toList with
    | '-' :: digits =>
      if digits ≠ [] ∧ digits.all Char.isDigit ∧ 0 < decimal digits ∧ decimal digits ≤ 2 ^ 63 then
        some (-decimal digits)
      else none
    | digits =>
      if digits ≠ [] ∧ digits.all Char.isDigit ∧ decimal digits < 2 ^ 63 then
        some (decimal digits)
      else none
  | _ => none

/-! ### JSON-RPC -/

/-- The error of a response. -/
structure JsonRpcErrorObject where
  code : ℤ
  message : String
  data : Option Json

structure JsonRpcResponse where
  jsonrpc : String
  id : ℕ
  result : Option Json
  error : Option JsonRpcErrorObject

structure JsonRpcNotification where
  jsonrpc : String
  method : String
  params : Option Json

variable (value : Json)

def readErrorObject : Option JsonRpcErrorObject :=
  match readStruct true [("code", false), ("message", false), ("data", true)] value with
  | some [some code, some message, data] =>
    match asI64 code, message.asStr, readOption some data with
    | some code, some message, some data => some { code, message, data }
    | _, _, _ => none
  | _ => none

/-- Reads a response. Neither the result nor the error is required, and a method is ignored. -/
def readResponse : Option JsonRpcResponse :=
  match readStruct true [("jsonrpc", false), ("id", false), ("result", true), ("error", true)]
      value with
  | some [some jsonrpc, some id, result, error] =>
    match jsonrpc.asStr, asU64 id, readOption some result, readOption readErrorObject error with
    | some jsonrpc, some id, some result, some error => some { jsonrpc, id, result, error }
    | _, _, _, _ => none
  | _ => none

def readNotification : Option JsonRpcNotification :=
  match readStruct true [("jsonrpc", false), ("method", false), ("params", true)] value with
  | some [some jsonrpc, some method, params] =>
    match jsonrpc.asStr, method.asStr, readOption some params with
    | some jsonrpc, some method, some params => some { jsonrpc, method, params }
    | _, _, _ => none
  | _ => none

/-! ### Tools and results -/

structure McpTool where
  name : String
  description : Option String
  inputSchema : Json

/-- A part of the result of a tool call. -/
inductive McpContent
  | text (text : String)
  | image (data : String) (mimeType : Option String)
  | resource (resource : Json)

structure CallToolResult where
  content : List McpContent
  isError : Bool

def readTool : Option McpTool :=
  match readStruct false [("name", false), ("description", false), ("input_schema", true)]
      value with
  | some [some name, description, inputSchema] =>
    match name.asStr, readOption Json.asStr description with
    | some name, some description =>
      some { name, description, inputSchema := inputSchema.getD .null }
    | _, _ => none
  | _ => none

/-- The tag of a value of an enumeration, and where its fields are. -/
def readTag : Json → Option (String × Json)
  | .object entries =>
    match valueGet "type" (.object entries) with
    | some (.string tag) => some (tag, .object entries)
    | _ => none
  | .array (.string tag :: rest) => some (tag, .array rest)
  | _ => none

/-- Reads a part of a result from a value. -/
def readContent : Option McpContent :=
  match readTag value with
  | some ("text", fields) =>
    match readStruct false [("text", false)] fields with
    | some [some text] => text.asStr.map .text
    | _ => none
  | some ("image", fields) =>
    match readStruct false [("data", false), ("mime_type", false)] fields with
    | some [some data, mimeType] =>
      match data.asStr, readOption Json.asStr mimeType with
      | some data, some mimeType => some (.image data mimeType)
      | _, _ => none
    | _ => none
  | some ("resource", fields) =>
    match readStruct false [("resource", false)] fields with
    | some [some resource] => some (.resource resource)
    | _ => none
  | _ => none

def readCallToolResult : Option CallToolResult :=
  match readStruct false [("content", false), ("is_error", true)] value with
  | some [some (.array parts), isError] =>
    match parts.mapM readContent, (isError.getD (.bool false)) with
    | some content, .bool isError => some { content, isError }
    | _, _ => none
  | _ => none

/-! ### Errors -/

inductive McpError
  | spawnFailed (message : String)
  | initializeFailed (message : String)
  | jsonRpcError (code : ℤ) (message : String)
  | protocolError (message : String)
  | timeout
  | io (message : String)
  | serverShutdown
deriving DecidableEq, Repr

end Choreo.Mcp
