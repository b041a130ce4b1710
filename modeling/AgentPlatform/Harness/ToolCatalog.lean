import AgentPlatform.Harness.Text

/-!
# The tool catalog

`tool_catalog.rs`: the four tools that the model may call, with their JSON schemas, and what a
validator of draft 2020-12 checks for the keywords of these schemas.
-/

namespace AgentPlatform.Harness

/-- A JSON object: `serde_json::Map`. -/
abbrev JsonObject := List (String × Value)

/-! ## Schemas -/

/-- `"type"`: whether a value has a JSON type. -/
def hasJsonType (word : String) : Value → Bool
  | .null => word == "null"
  | .bool _ => word == "boolean"
  | .number _ => word == "number"
  | .string _ => word == "string"
  | .array _ => word == "array"
  | .object _ => word == "object"

/-- `"enum"`, over strings. -/
def isOneOf (words : List Value) : Value → Bool
  | .string text => words.any fun word => word.asStr == some text
  | _ => false

/-- `"required"`. -/
def hasRequired (names : List Value) (v : Value) : Bool :=
  match v with
  | .object _ => names.all fun name => (name.asStr.bind v.get).isSome
  | _ => true

/-- `"additionalProperties": false`, beside the schema's own properties. -/
def hasOnly (schema : JsonObject) : Value → Bool
  | .object fields =>
    match Value.get (.object schema) "properties" with
    | some (.object properties) => fields.all fun field => properties.any (·.1 == field.1)
    | _ => fields.isEmpty
  | _ => true

mutual

/-- Whether a value satisfies a schema. -/
def satisfies : Value → Value → Bool
  | .object keywords, v => satisfiesKeywords keywords keywords v
  | .bool allowed, _ => allowed
  | _, _ => true

/-- Whether a value satisfies every keyword of a list; `schema` is the object they stand in. -/
def satisfiesKeywords (schema : JsonObject) : JsonObject → Value → Bool
  | [], _ => true
  | (keyword, argument) :: keywords, v =>
    satisfiesKeyword schema keyword argument v && satisfiesKeywords schema keywords v

def satisfiesKeyword (schema : JsonObject) (keyword : String) : Value → Value → Bool
  | .string word, v => keyword != "type" || hasJsonType word v
  | .array words, v =>
    if keyword = "enum" then isOneOf words v
    else if keyword = "required" then hasRequired words v
    else true
  | .bool false, v => keyword != "additionalProperties" || hasOnly schema v
  | .object argument, v =>
    if keyword = "properties" then satisfiesProperties argument v
    else if keyword = "items" then
      match v with
      | .array items => items.all fun item => satisfiesKeywords argument argument item
      | _ => true
    else true
  | _, _ => true

def satisfiesProperties : JsonObject → Value → Bool
  | [], _ => true
  | (name, schema) :: properties, v =>
    (match v.get name with
      | some field => satisfies schema field
      | none => true) && satisfiesProperties properties v

end

/-! ## Descriptors -/

structure ToolDescriptor where
  definition : ToolDefinition
  callKind : ToolCallKind
  scheduling : ToolScheduling

def toolName : ToolDefinition → String
  | .function name .. => name
  | .custom name .. => name

/-- `tool_catalog::parameters`. -/
def ToolDescriptor.parameters (descriptor : ToolDescriptor) : Option JsonObject :=
  match descriptor.definition with
  | .function _ _ parameters _ _ => some parameters
  | .custom .. => none

namespace ToolCatalog

/-- `function`. -/
def functionTool (name description : String) (parameters : JsonObject)
    (scheduling : ToolScheduling) : ToolDescriptor where
  definition := .function name description parameters none (some false)
  callKind := .function
  scheduling

/-- A property of a scalar type. -/
def property (type description : String) : Value :=
  .object [("type", .string type), ("description", .string description)]

/-- A string property with its allowed words. -/
def choice (words : List String) (description : String) : Value :=
  .object [("type", .string "string"), ("enum", .array (words.map .string)),
    ("description", .string description)]

/-- The schema of an object with these properties and no others. -/
def closedObject (properties : JsonObject) (required : List String) : JsonObject :=
  [("type", .string "object"), ("properties", .object properties),
    ("required", .array (required.map .string)), ("additionalProperties", .bool false)]

def execCommandParameters : JsonObject :=
  closedObject
    [("cmd", property "string" "Shell command to execute."),
      ("workdir", property "string"
        "Working directory for the command. Defaults to the turn cwd."),
      ("tty", property "boolean"
        "True allocates a PTY for the command; false or omitted uses plain pipes."),
      ("yield_time_ms", property "number"
        "Wait before yielding output. Defaults to 10000 ms; effective range is 250-30000 ms."),
      ("max_output_tokens", property "number"
        ("Output token budget. Defaults to 10000 tokens; " ++
          "larger requests may be capped by policy.")),
      ("shell", property "string"
        "Shell binary to launch. Defaults to the user's default shell."),
      ("login", property "boolean"
        ("True runs the shell with -l/-i semantics; false disables them. " ++
          "Defaults to true.")),
      ("sandbox_permissions", choice ["use_default", "require_escalated"]
        ("Per-command sandbox override. Defaults to `use_default`; " ++
          "use `require_escalated` for unsandboxed execution.")),
      ("justification", property "string"
        "User-facing approval question for `require_escalated`; omit otherwise."),
      ("prefix_rule", .object
        [("type", .string "array"), ("items", .object [("type", .string "string")]),
          ("description", .string
            ("Reusable approval prefix for `cmd`, only with " ++
              "`sandbox_permissions: \"require_escalated\"`; " ++
              "for example [\"git\", \"pull\"]."))])]
    ["cmd"]

def writeStdinParameters : JsonObject :=
  closedObject
    [("session_id", property "number" "Identifier of the running unified exec session."),
      ("chars", property "string"
        "Bytes to write to stdin. Defaults to empty, which polls without writing."),
      ("yield_time_ms", property "number"
        ("Wait before yielding output. Non-empty writes default to 250 ms and cap at 30000 ms; " ++
          "empty polls wait 5000-300000 ms by default.")),
      ("max_output_tokens", property "number"
        ("Output token budget. Defaults to 10000 tokens; " ++
          "larger requests may be capped by policy."))]
    ["session_id"]

def viewImageParameters : JsonObject :=
  closedObject
    [("path", property "string" "Local filesystem path to an image file."),
      ("detail", choice ["high", "original"]
        ("Image detail level. Defaults to `high`; " ++
          "use `original` to preserve exact resolution."))]
    ["path"]

def descriptors (lib : Foreign) : List ToolDescriptor :=
  [functionTool "exec_command"
      "Runs a command in a PTY, returning output or a session ID for ongoing interaction."
      execCommandParameters .parallelSafe,
    functionTool "write_stdin"
      "Writes characters to an existing unified exec session and returns recent output."
      writeStdinParameters .parallelSafe,
    { definition := .custom "apply_patch"
        ("The `apply_patch` tool can be used to edit files. " ++
          "This is a FREEFORM tool, so do not wrap the patch in JSON.")
        { grammar := .lark, definition := lib.applyPatchGrammar }
      callKind := .custom
      scheduling := .exclusive },
    functionTool "view_image"
      ("View a local image file from the filesystem when visual inspection is needed. " ++
        "Use this for images already available on disk.")
      viewImageParameters .parallelSafe]

def definitions (lib : Foreign) : List ToolDefinition :=
  (descriptors lib).map (·.definition)

def descriptor (lib : Foreign) (name : String) : Option ToolDescriptor :=
  (descriptors lib).find? fun descriptor => toolName descriptor.definition == name

/-! ## What the catalog guarantees -/

/-- The tools are called by their own names. -/
theorem descriptor_name {lib : Foreign} {name : String} {tool : ToolDescriptor}
    (h : descriptor lib name = some tool) : toolName tool.definition = name := by
  simpa using List.find?_some h

/-- A tool's schema, where it has one, is the schema of a closed object. -/
theorem descriptor_parameters {lib : Foreign} {name : String} {tool : ToolDescriptor}
    {parameters : JsonObject} (h : descriptor lib name = some tool)
    (hparameters : tool.parameters = some parameters) :
    ∃ properties required, parameters = closedObject properties required := by
  have hmem := List.mem_of_find?_eq_some h
  simp only [descriptors, List.mem_cons, List.not_mem_nil, or_false] at hmem
  rcases hmem with rfl | rfl | rfl | rfl
  · cases hparameters
    exact ⟨_, _, rfl⟩
  · cases hparameters
    exact ⟨_, _, rfl⟩
  · cases hparameters
  · cases hparameters
    exact ⟨_, _, rfl⟩

/-- What satisfies the schema of a closed object is an object. -/
theorem satisfies_closedObject {properties : JsonObject} {required : List String} {v : Value}
    (h : satisfies (.object (closedObject properties required)) v = true) :
    ∃ fields, v = .object fields := by
  simp only [satisfies, closedObject, satisfiesKeywords, satisfiesKeyword, bne_self_eq_false,
    Bool.false_or, Bool.and_eq_true] at h
  cases v with
  | object fields => exact ⟨fields, rfl⟩
  | null => simp [hasJsonType] at h
  | bool b => simp [hasJsonType] at h
  | number n => simp [hasJsonType] at h
  | string text => simp [hasJsonType] at h
  | array items => simp [hasJsonType] at h

end ToolCatalog

end AgentPlatform.Harness
