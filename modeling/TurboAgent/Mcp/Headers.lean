import TurboAgent.Mcp.Response

/-!
# Arguments mirrored in headers

An input schema may ask that an argument is sent in a header of its own.  The annotations are
collected when a tool is registered; a call of the tool writes the arguments at their paths as
headers and sends them with the request.  Allocations succeed.
-/

namespace TurboAgent.Mcp

open Runtime

/-- `turbo_mcp_header_value_type_t`. -/
inductive HeaderValueType where
  | string
  | integer
  | boolean
  deriving DecidableEq

def HeaderValueType.text : HeaderValueType → String
  | .string => "string"
  | .integer => "integer"
  | .boolean => "boolean"

/-- `turbo_mcp_header_binding_t`. -/
structure HeaderBinding where
  name : String
  path : List String
  type : HeaderValueType
  deriving DecidableEq

/-- `turbo_mcp_tchar`. -/
def tchar (ch : Char) : Bool :=
  ('a' ≤ ch && ch ≤ 'z') || ('A' ≤ ch && ch ≤ 'Z') || ('0' ≤ ch && ch ≤ '9') ||
    "!#$%&'*+-.^_\x60|~".toList.contains ch

/-- `turbo_mcp_header_name_valid`. -/
def headerNameValid (name : String) : Bool :=
  name ≠ "" && name.toList.all tchar

/-- A name as `tstr_casecmp` reads it. -/
def foldName (name : String) : List Char :=
  name.toList.map Char.toLower

/-- `turbo_mcp_header_name_unique`. -/
def headerNameUnique (headers : List HeaderBinding) (name : String) : Bool :=
  headers.all fun binding => foldName binding.name ≠ foldName name

/-- `turbo_mcp_json_c_string`. -/
def jsonCString (object : Json) (key : String) : Option String :=
  match object.field key with
  | some (.string text) => if noNul text then some text else none
  | _ => none

/-- The type of a schema whose values can be mirrored. -/
def headerValueType (type : String) : Option HeaderValueType :=
  if type = "string" then some .string
  else if type = "integer" then some .integer
  else if type = "boolean" then some .boolean
  else none

/-- `turbo_mcp_collect_header`: the headers with one more, or none if the schema is rejected. -/
def collectHeader (headers : List HeaderBinding) (path : List String) (schema : Json) :
    Option (List HeaderBinding) := do
  let name ← jsonCString schema "x-mcp-header"
  if headerNameValid name = false || headerNameUnique headers name = false then none
  else
    let type ← jsonCString schema "type"
    if path = [] then none
    else
      let type ← headerValueType type
      some (headers ++ [⟨name, path, type⟩])

def scanAnnotation (reachable : Bool) (path : List String) (headers : List HeaderBinding)
    (node : Json) : Option (List HeaderBinding) :=
  match node.field "x-mcp-header" with
  | none => some headers
  | some (.string _) => if reachable then collectHeader headers path node else none
  | some _ => none

def scanProperty (scan : List String → List HeaderBinding → Json → Option (List HeaderBinding))
    (path : List String) (headers : List HeaderBinding) (property : String × Json) :
    Option (List HeaderBinding) :=
  if noNul property.1 then scan (path ++ [property.1]) headers property.2 else none

/-- The scan of the properties of a reachable object. -/
def scanProperties (scan : List String → List HeaderBinding → Json → Option (List HeaderBinding))
    (path : List String) (headers : List HeaderBinding) :
    Option Json → Option (List HeaderBinding)
  | none => some headers
  | some (.object properties) => properties.foldlM (scanProperty scan path) headers
  | some _ => none

/-- The scan of a member of an object.  The properties of a reachable object are done. -/
def scanMember (scan : List HeaderBinding → Json → Option (List HeaderBinding)) (reachable : Bool)
    (headers : List HeaderBinding) (member : String × Json) : Option (List HeaderBinding) :=
  if noNul member.1 = false then none
  else if reachable && member.1 == "properties" then some headers
  else scan headers member.2

/-- `turbo_mcp_scan_schema`, with `room` levels left above the greatest depth. -/
def scanSchema : Nat → Bool → List String → List HeaderBinding → Json →
    Option (List HeaderBinding)
  | 0, _, _, _, _ => none
  | room + 1, _, path, headers, .array elements =>
      elements.foldlM (fun headers => scanSchema room false path headers) headers
  | room + 1, reachable, path, headers, .object members => do
      let headers ← scanAnnotation reachable path headers (.object members)
      let headers ←
        if reachable then
          scanProperties (scanSchema room true) path headers
            (Json.field (.object members) "properties")
        else some headers
      members.foldlM (scanMember (scanSchema room false path) reachable) headers
  | _ + 1, _, _, headers, _ => some headers

/-- `TURBO_MCP_MAX_SCHEMA_DEPTH`. -/
def maxSchemaDepth : Nat := 32

def schemaHeaders (schema : Json) : Option (List HeaderBinding) :=
  scanSchema (maxSchemaDepth + 1) true [] [] schema

/-! ## Values -/

/-- `tn_base64_encode`: visible ASCII that can be decoded; the writer of documents; and the
numbers that are read as an integer of at most 53 bits, with their sign. -/
structure Libraries where
  base64 : Bytes → Bytes
  serialize : Json → Bytes
  wholeNumber : Int → Nat → Option (Bool × Nat)
  base64_visible : ∀ bytes, ∀ byte ∈ base64 bytes, 33 ≤ byte ∧ byte ≤ 126
  base64_injective : Function.Injective base64

def plainByte (byte : UInt8) : Bool :=
  (0x21 ≤ byte && byte ≤ 0x7e) || byte == 0x20 || byte == 0x09

def blankByte (byte : UInt8) : Bool :=
  byte == 0x20 || byte == 0x09

def encodedStart : Bytes := asciiBytes "=?base64?"

def encodedEnd : Bytes := asciiBytes "?="

def looksEncoded (value : Bytes) : Bool :=
  11 ≤ value.length && encodedStart.isPrefixOf value && encodedEnd.isSuffixOf value

/-- `turbo_mcp_header_plain_safe`. -/
def headerPlainSafe (value : Bytes) : Bool :=
  !(value.head?.any blankByte || value.getLast?.any blankByte) && !looksEncoded value &&
    value.all plainByte

/-- `turbo_mcp_encode_header_value`. -/
def encodeHeaderValue (libraries : Libraries) (value : Bytes) : Bytes :=
  if headerPlainSafe value then value
  else encodedStart ++ libraries.base64 value ++ encodedEnd

/-- `turbo_mcp_format_header`. -/
def formatHeader (libraries : Libraries) (name value : Bytes) : Bytes :=
  name ++ asciiBytes ": " ++ encodeHeaderValue libraries value

/-- `turbo_mcp_argument_at_path`. -/
def argumentAtPath (arguments : Option Json) (path : List String) : Option Json :=
  path.foldl (fun current segment => current.bind (·.field segment)) arguments

def parameterText (libraries : Libraries) : HeaderValueType → Json → Option Bytes
  | .string, .string text => some (utf8 text)
  | .boolean, .bool value => some (asciiBytes (if value then "true" else "false"))
  | .integer, .number mantissa exponent =>
      (libraries.wholeNumber mantissa exponent).map fun (negative, magnitude) =>
        (if negative then asciiBytes "-" else []) ++ decimal magnitude
  | _, _ => none

/-- `turbo_mcp_parameter_header`. -/
def parameterHeader (libraries : Libraries) (header : HeaderBinding) (value : Json) :
    Option Bytes :=
  (parameterText libraries header.type value).map
    (formatHeader libraries (asciiBytes "Mcp-Param-" ++ utf8 header.name))

/-- The headers of a call, or none if an argument cannot be mirrored. -/
def parameterHeaders (libraries : Libraries) (arguments : Option Json) :
    List HeaderBinding → Option (List Bytes)
  | [] => some []
  | header :: headers =>
      match argumentAtPath arguments header.path with
      | none | some .null => parameterHeaders libraries arguments headers
      | some value => do
          let formatted ← parameterHeader libraries header value
          let rest ← parameterHeaders libraries arguments headers
          some (formatted :: rest)

/-! ## Requests -/

structure ClientConfig where
  (clientName clientVersion : CString)
  (maxRequestBytes maxHeaders maxHeaderBytes : Nat)
  headerRoom : 5 ≤ maxHeaders

/-- `turbo_mcp_client_t`. -/
structure Client where
  config : ClientConfig
  nextRequestId : UInt64
  lastError : Bytes

/-- `turbo_mcp_client_set_error`. -/
def Client.setError (client : Client) (message : String) : Client :=
  { client with lastError := lastErrorOf (asciiBytes message) }

/-- A request: refused, or handed to the transport. -/
inductive Request where
  | refused (status : ToolStatus)
  | posted (headers : List Bytes) (body : Bytes)
  deriving DecidableEq

/-- `TURBO_MCP_PROTOCOL_VERSION`. -/
def protocolVersion : String := "2026-07-28"

/-- `turbo_mcp_add_request_meta`. -/
def addRequestMeta (config : ClientConfig) (params : Json) : Option Json :=
  if params.isObject && (params.field "_meta").isNone then
    some (params.set "_meta" (.object
      [("io.modelcontextprotocol/protocolVersion", .string protocolVersion),
        ("io.modelcontextprotocol/clientInfo", .object
          [("name", .string config.clientName), ("version", .string config.clientVersion)]),
        ("io.modelcontextprotocol/clientCapabilities", .object [])]))
  else none

/-- The headers in front of those of the parameters. -/
def requestHeaders (libraries : Libraries) (method : String) (name : Option CString) :
    List Bytes :=
  [asciiBytes "Content-Type: application/json",
    asciiBytes "Accept: application/json, text/event-stream",
    asciiBytes "MCP-Protocol-Version: " ++ asciiBytes protocolVersion,
    asciiBytes "Mcp-Method: " ++ utf8 method] ++
  (name.map fun name =>
    asciiBytes "Mcp-Name: " ++ encodeHeaderValue libraries (utf8 name.val)).toList

/-- Whether the headers have at most `room` bytes together. -/
def headersFit (room : Nat) : List Bytes → Bool
  | [] => true
  | header :: headers => header.length ≤ room && headersFit (room - header.length) headers

/-- `turbo_mcp_client_request`, up to the call of the transport. -/
def clientRequest (libraries : Libraries) (client : Client) (method : String)
    (name : Option CString) (params : Json) (parameters : List Bytes) : Request × Client :=
  if method = "" || params.isObject = false ||
      client.config.maxHeaders - 4 < parameters.length then
    (.refused .invalidArgument, client)
  else
    let client := { client with lastError := [] }
    if client.nextRequestId.toNat = 0 || 9223372036854775807 < client.nextRequestId.toNat then
      (.refused .error, client.setError "MCP request id space exhausted")
    else
      let requestId := client.nextRequestId
      let client := { client with nextRequestId := requestId + 1 }
      match addRequestMeta client.config params with
      | none => (.refused .outOfMemory, client)
      | some params =>
          let body := libraries.serialize (.object
            [("jsonrpc", .string "2.0"), ("id", .int requestId.toNat),
              ("method", .string method), ("params", params)])
          let headers := requestHeaders libraries method name ++ parameters
          if client.config.maxRequestBytes < body.length then
            (.refused .outputLimit, client.setError "MCP request exceeds configured byte limit")
          else if client.config.maxHeaders < headers.length then
            (.refused .outputLimit, client.setError "MCP request exceeds header count limit")
          else if headersFit client.config.maxHeaderBytes headers = false then
            (.refused .outputLimit, client.setError "MCP request exceeds header byte limit")
          else (.posted headers body, client)

/-- `turbo_mcp_tool_binding_t`. -/
structure ToolBinding where
  remoteName : CString
  headers : List HeaderBinding

/-- What `turbo_mcp_context_status` answers at the start of a call and before the request. -/
structure ContextChecks where
  (early late : ToolStatus)

/-- `turbo_mcp_tool_invoke_context`, up to the call of the transport. -/
def toolInvoke (libraries : Libraries) (binding : ToolBinding) (checks : ContextChecks)
    (client : Client) (arguments : Option Json) : Request × Client :=
  if arguments.any (·.isObject = false) then (.refused .invalidArgument, client)
  else if checks.early ≠ .ok then (.refused checks.early, client)
  else
    match parameterHeaders libraries arguments binding.headers with
    | none =>
        (.refused .invalidArgument,
          client.setError "tool argument cannot be mirrored to its MCP header")
    | some parameters =>
        if checks.late ≠ .ok then (.refused checks.late, client)
        else
          clientRequest libraries client "tools/call" (some binding.remoteName)
            (.object [("name", .string binding.remoteName),
              ("arguments", arguments.getD (.object []))]) parameters

end TurboAgent.Mcp
