import AgentPlatform.Harness.FilesystemTools

/-!
# Arguments by schema and by decoder

The model is told what the arguments of a tool are by a JSON schema, and a plan leaves a call pending
when its arguments satisfy it. A pending call then decodes them into a typed record. The schemas say
`number` where the records hold integers of some width; there, and only there, what satisfies the
schema is refused as malformed.
-/

namespace AgentPlatform.Harness

open ShellTools ToolCatalog

/-! ## What a schema tells of the fields -/

section

variable {v : Value} {name type description : String}

/-- A property has what its schema asks for. -/
theorem satisfiesProperties_mem {properties : JsonObject}
    (h : satisfiesProperties properties v = true) {schema : Value}
    (member : (name, schema) ∈ properties) {field : Value} (found : v.get name = some field) :
    satisfies schema field = true := by
  induction properties with
  | nil => exact absurd member List.not_mem_nil
  | cons property properties ih =>
    obtain ⟨name', schema'⟩ := property
    simp only [satisfiesProperties, Bool.and_eq_true] at h
    rcases List.mem_cons.mp member with heq | hrest
    · cases heq
      simpa only [found] using h.1
    · exact ih h.2 hrest

/-- The fields of a closed object: they satisfy their schemas, they have the names of properties,
and none is missing that is required. -/
theorem closedObject_fields {properties fields : JsonObject} {required : List String}
    (h : satisfies (.object (closedObject properties required)) (.object fields) = true) :
    satisfiesProperties properties (.object fields) = true ∧
      (∀ field ∈ fields, ∃ property ∈ properties, property.1 = field.1) ∧
      ∀ name ∈ required, ∃ field, Value.get (.object fields) name = some field := by
  simp only [satisfies, closedObject, satisfiesKeywords, satisfiesKeyword, Bool.and_eq_true] at h
  obtain ⟨-, hproperties, hrequired, honly, -⟩ := h
  refine ⟨by simpa using hproperties, ?_, ?_⟩
  · simpa [hasOnly, Value.get] using honly
  · intro name hname
    have hall : ∀ name ∈ required, (Value.get (.object fields) name).isSome = true := by
      simpa [hasRequired, Value.asStr] using hrequired
    exact Option.isSome_iff_exists.mp (hall name hname)

theorem satisfies_property :
    satisfies (property type description) v = hasJsonType type v := by
  simp [property, satisfies, satisfiesKeywords, satisfiesKeyword]

theorem string_of_type (h : hasJsonType "string" v = true) : ∃ text, v = .string text := by
  cases v with
  | string text => exact ⟨text, rfl⟩
  | _ => simp [hasJsonType] at h

theorem bool_of_type (h : hasJsonType "boolean" v = true) : ∃ b, v = .bool b := by
  cases v with
  | bool b => exact ⟨b, rfl⟩
  | _ => simp [hasJsonType] at h

theorem number_of_type (h : hasJsonType "number" v = true) : ∃ n, v = .number n := by
  cases v with
  | number n => exact ⟨n, rfl⟩
  | _ => simp [hasJsonType] at h

theorem satisfies_choice {words : List String} (h : satisfies (choice words description) v = true) :
    ∃ word ∈ words, v = .string word := by
  simp only [choice, satisfies, satisfiesKeywords, satisfiesKeyword, Bool.and_eq_true] at h
  obtain ⟨htype, hwords, -⟩ := h
  obtain ⟨text, rfl⟩ := string_of_type (by simpa using htype)
  have : ∃ word ∈ words, word = text := by simpa [isOneOf, Value.asStr] using hwords
  obtain ⟨word, hword, rfl⟩ := this
  exact ⟨word, hword, rfl⟩

end

/-! ## What the decoders ask for -/

/-- Absent, or an integer from 0 to 2^64 - 1, written without a fraction or an exponent. -/
def absentOrU64 : Option Value → Bool
  | none | some (.number (.posInt _)) => true
  | _ => false

/-- An integer from -2^31 to 2^31 - 1. -/
def isI32 : Option Value → Bool
  | some (.number (.posInt n)) => n.toNat < 2 ^ 31
  | some (.number (.negInt n)) => -2 ^ 31 ≤ n.toInt && n.toInt < 2 ^ 31
  | _ => false

section

variable {fields : JsonObject} {name : String}

theorem structFields_closed {names : List String} {properties : JsonObject}
    (known : ∀ field ∈ fields, ∃ property ∈ properties, property.1 = field.1)
    (same : properties.map (·.1) = names) : structFields names (.object fields) = some fields := by
  have hall : (fields.all fun field => names.contains field.1) = true := by
    rw [List.all_eq_true]
    intro field hfield
    obtain ⟨property, hproperty, heq⟩ := known field hfield
    rw [List.contains_iff_mem, ← same, ← heq]
    exact List.mem_map_of_mem hproperty
  rw [structFields, if_pos hall]

/-- A field with a default decodes when its value does. -/
theorem fieldOr_some {α : Type} {decode : Value → Option α} (default : α)
    (decodes : ∀ field, Value.get (.object fields) name = some field → ∃ a, decode field = some a) :
    ∃ a, fieldOr fields name default decode = some a := by
  rw [fieldOr]
  cases hfield : Value.get (.object fields) name with
  | none => exact ⟨default, rfl⟩
  | some field => exact decodes field hfield

theorem decodeOption_some {α : Type} {decode : Value → Option α} {field : Value} {a : α}
    (value : field ≠ .null) (h : decode field = some a) : decodeOption decode field = some (some a) := by
  cases field with
  | null => exact absurd rfl value
  | _ => exact congrArg (Option.map some) h

theorem fieldOr_u64 (default : Nat) : (fieldOr fields name default decodeU64).isSome =
    absentOrU64 (Value.get (.object fields) name) := by
  rw [fieldOr]
  cases Value.get (.object fields) name with
  | none => rfl
  | some field =>
    cases field with
    | number n => cases n <;> rfl
    | _ => rfl

theorem fieldOr_optionU64 (number : ∀ field, Value.get (.object fields) name = some field →
    ∃ n, field = .number n) : (fieldOr fields name none (decodeOption decodeU64)).isSome =
      absentOrU64 (Value.get (.object fields) name) := by
  rw [fieldOr]
  cases hfield : Value.get (.object fields) name with
  | none => rfl
  | some field =>
    obtain ⟨n, rfl⟩ := number field hfield
    cases n <;> rfl

theorem decodeI32_isSome (field : Option Value) : (field.bind decodeI32).isSome = isI32 field := by
  cases field with
  | none => rfl
  | some field =>
    cases field with
    | number n =>
      cases n with
      | posInt n =>
        simp only [Option.bind_some, decodeI32, Value.asI64, isI32]
        by_cases hn : n.toNat < 2 ^ 63
        · rw [if_pos hn]
          dsimp only
          by_cases hsmall : n.toNat < 2 ^ 31
          · rw [if_pos (by omega), decide_eq_true hsmall]
            rfl
          · rw [if_neg (by omega), decide_eq_false hsmall]
            rfl
        · rw [if_neg hn, decide_eq_false (by omega)]
          rfl
      | negInt n =>
        simp only [Option.bind_some, decodeI32, Value.asI64, isI32]
        split <;> simp_all
      | float digits => rfl
    | _ => rfl

/-- The session that a call is serialised by is the one that its arguments decode to. -/
theorem inputSessionId_json (v : Value) :
    ToolExecution.inputSessionId (.json v) = (v.get "session_id").bind decodeI32 := by
  rw [ToolExecution.inputSessionId]
  cases v.get "session_id" with
  | none => rfl
  | some field =>
    simp only [Option.bind_some, decodeI32]
    cases field.asI64 with
    | none => rfl
    | some n =>
      rw [Option.filter_some]
      simp

end

/-! ## The tools -/

/-- The tools that are called with JSON arguments. -/
inductive JsonTool where
  | execCommand
  | writeStdin
  | viewImage
deriving DecidableEq, Repr

namespace JsonTool

def name : JsonTool → String
  | execCommand => "exec_command"
  | writeStdin => "write_stdin"
  | viewImage => "view_image"

/-- The schema that is advertised for the arguments. -/
def parameters : JsonTool → JsonObject
  | execCommand => execCommandParameters
  | writeStdin => writeStdinParameters
  | viewImage => viewImageParameters

/-- The arguments decode. -/
def Decodes : JsonTool → Value → Prop
  | execCommand, v => ∃ args, decodeExecCommandArgs v = some args
  | writeStdin, v => ∃ args, decodeWriteStdinArgs v = some args
  | viewImage, v => ∃ args, FilesystemTools.decodeViewImageArgs v = some args

/-- The refusals that are not about the form of the arguments. -/
inductive Semantic : JsonTool → ToolResultSnapshot → Prop
  | emptyCommand : Semantic execCommand (toolError "invalid_tool_arguments" "cmd must not be empty")
  | nulInWorkdir :
      Semantic execCommand (toolError "invalid_tool_arguments" "workdir contains a NUL byte")
  | unsupportedShell (shell : String) :
      Semantic execCommand (toolError "invalid_tool_arguments" ("unsupported shell " ++ shell))
  | unknownSession (sessionId : Int) : Semantic writeStdin
      (toolError "invalid_tool_arguments" ("unknown session ID " ++ toString sessionId))
  | invalidPath : Semantic viewImage
      (toolError "invalid_path" "patch paths must be nonempty and contain no NUL bytes")

/-- A harness with its file tools. -/
def equipped (lib : Foreign) (fl : FilesystemTools.FileLib) (harness : BasicCodexHarness)
    (config : BasicCodexConfig) : Agent :=
  { lib, files := FilesystemTools.tools lib fl, harness, config }

/-- The tool takes the arguments: its call is left pending, they decode, it is serialised by the
session that is looked up, and it is refused for a semantic reason only. -/
structure Accepts (tool : JsonTool) (v : Value) : Prop where
  pending : ∀ (lib : Foreign) (item : Value) (arguments : String) (descriptor : ToolDescriptor),
    (item.get "arguments").bind Value.asStr = some arguments →
    lib.parseJson arguments = .ok v →
    ToolCatalog.descriptor lib tool.name = some descriptor →
    ToolPlan.parseFunctionInput lib item descriptor = (.json v, .pending)
  decodes : tool.Decodes v
  serialised : tool = writeStdin → ∀ (call : ToolCallState) (args : WriteStdinArgs),
    call.name = tool.name → call.input = .json v → call.status = .pending →
    decodeWriteStdinArgs v = some args →
    ToolExecution.resourceSessionId call = some args.sessionId
  refused : ∀ (lib : Foreign) (fl : FilesystemTools.FileLib) (harness : BasicCodexHarness)
    (config : BasicCodexConfig) (call : ToolCallState) (executions : List TrackedExecution)
    (invocation : Invocation) (turnId : Uuid) (ordinal : Nat) (draw : Uuid)
    (snapshot : ToolResultSnapshot),
    call.name = tool.name → call.input = .json v → call.status = .pending →
    ToolExecution.prepareCall (equipped lib fl harness config) executions invocation turnId call
      ordinal draw = some (.error snapshot) →
    tool.Semantic snapshot

/-- The numbers among the arguments are integers of the width that the record has for them. -/
def numbersFit : JsonTool → Value → Bool
  | execCommand, v => absentOrU64 (v.get "yield_time_ms") && absentOrU64 (v.get "max_output_tokens")
  | writeStdin, v => isI32 (v.get "session_id") && absentOrU64 (v.get "yield_time_ms") &&
      absentOrU64 (v.get "max_output_tokens")
  | viewImage, _ => true

/-! ## Decoding -/

/-- A property of a closed object that is there has what its schema asks for. -/
theorem field_satisfies {properties fields : JsonObject} {name : String}
    (h : satisfiesProperties properties (.object fields) = true) {schema : Value}
    (listed : Value.get (.object properties) name = some schema) {field : Value}
    (found : Value.get (.object fields) name = some field) : satisfies schema field = true := by
  obtain ⟨property, hproperty, rfl⟩ := Option.map_eq_some_iff.mp listed
  have hname : property.1 = name := by simpa using List.find?_some hproperty
  subst hname
  exact satisfiesProperties_mem h (List.mem_of_find?_eq_some hproperty) found

section

variable {properties fields : JsonObject} {name description : String}
  (h : satisfiesProperties properties (.object fields) = true)

include h

theorem string_field (listed : Value.get (.object properties) name = some (property "string" description)) :
    ∀ field, Value.get (.object fields) name = some field → ∃ text, field = .string text := by
  intro field hfield
  have hschema := field_satisfies h listed hfield
  rw [satisfies_property] at hschema
  exact string_of_type hschema

theorem optionalString_field (listed : Value.get (.object properties) name = some (property "string" description)) :
    ∃ text, fieldOr fields name none (decodeOption Value.asStr) = some text := by
  refine fieldOr_some none fun field hfield => ?_
  obtain ⟨text, rfl⟩ := string_field h listed field hfield
  exact ⟨some text, rfl⟩

theorem bool_field (default : Bool) (listed : Value.get (.object properties) name = some (property "boolean" description)) :
    ∃ b, fieldOr fields name default decodeBool = some b := by
  refine fieldOr_some default fun field hfield => ?_
  have hschema := field_satisfies h listed hfield
  rw [satisfies_property] at hschema
  obtain ⟨b, rfl⟩ := bool_of_type hschema
  exact ⟨b, rfl⟩

theorem number_field (listed : Value.get (.object properties) name = some (property "number" description)) :
    ∀ field, Value.get (.object fields) name = some field → ∃ n, field = .number n := by
  intro field hfield
  have hschema := field_satisfies h listed hfield
  rw [satisfies_property] at hschema
  exact number_of_type hschema

theorem choice_field {words : List String} (listed : Value.get (.object properties) name = some (choice words description)) :
    ∃ word, fieldOr fields name none (decodeOption Value.asStr) = some word ∧
      ∀ text ∈ word, text ∈ words := by
  rw [fieldOr]
  cases hfield : Value.get (.object fields) name with
  | none => exact ⟨none, rfl, fun _ h => absurd h (Option.not_mem_none _)⟩
  | some field =>
    obtain ⟨word, hword, rfl⟩ := satisfies_choice (field_satisfies h listed hfield)
    exact ⟨some word, rfl, fun _ h => Option.mem_some_iff.mp h ▸ hword⟩

end

theorem strings_some {items : List Value}
    (h : (items.all fun item => satisfiesKeywords [("type", .string "string")]
      [("type", .string "string")] item) = true) : ∃ texts, decodeStrings (.array items) = some texts := by
  rw [decodeStrings]
  induction items with
  | nil => exact ⟨[], rfl⟩
  | cons item items ih =>
    rw [List.all_cons, Bool.and_eq_true] at h
    have htype : hasJsonType "string" item = true := by
      simpa [satisfiesKeywords, satisfiesKeyword] using h.1
    obtain ⟨text, rfl⟩ := string_of_type htype
    obtain ⟨texts, htexts⟩ := ih h.2
    exact ⟨text :: texts, by rw [List.mapM_cons, htexts]; rfl⟩

theorem prefixRule_field {description : String} {field : Value}
    (h : satisfies (.object [("type", .string "array"), ("items", .object [("type", .string "string")]),
      ("description", .string description)]) field = true) :
    ∃ texts, decodeOption decodeStrings field = some texts := by
  simp only [satisfies, satisfiesKeywords, satisfiesKeyword, Bool.and_eq_true] at h
  obtain ⟨htype, hitems, -⟩ := h
  cases field with
  | array items =>
    obtain ⟨texts, htexts⟩ := strings_some (by simpa [satisfiesKeyword] using hitems)
    exact ⟨some texts, decodeOption_some (by simp) htexts⟩
  | _ => simp [hasJsonType] at htype

/-- Whether `exec_command` arguments decode is up to two numbers. -/
theorem execCommand_decodes {fields : JsonObject}
    (h : satisfies (.object execCommandParameters) (.object fields) = true) :
    Decodes execCommand (.object fields) ↔ numbersFit execCommand (.object fields) = true := by
  obtain ⟨hproperties, hknown, hrequired⟩ := closedObject_fields h
  have hstruct : structFields ["cmd", "workdir", "tty", "yield_time_ms", "max_output_tokens", "shell",
      "login", "sandbox_permissions", "justification", "prefix_rule"] (.object fields) = some fields :=
    structFields_closed hknown rfl
  obtain ⟨cmdField, hcmdField⟩ := hrequired "cmd" (by decide)
  obtain ⟨cmd, rfl⟩ := string_field hproperties rfl cmdField hcmdField
  have hcmd : field fields "cmd" Value.asStr = some cmd := by
    rw [field, hcmdField]
    rfl
  obtain ⟨workdir, hworkdir⟩ : ∃ text, fieldOr fields "workdir" none (decodeOption Value.asStr) =
    some text := optionalString_field hproperties rfl
  obtain ⟨tty, htty⟩ : ∃ b, fieldOr fields "tty" false decodeBool = some b :=
    bool_field hproperties false rfl
  obtain ⟨shell, hshell⟩ : ∃ text, fieldOr fields "shell" none (decodeOption Value.asStr) =
    some text := optionalString_field hproperties rfl
  obtain ⟨login, hlogin⟩ : ∃ b, fieldOr fields "login" true decodeBool = some b :=
    bool_field hproperties true rfl
  obtain ⟨permissions, hpermissions, -⟩ : ∃ word, fieldOr fields "sandbox_permissions" none
      (decodeOption Value.asStr) = some word ∧ ∀ text ∈ word, text ∈ ["use_default",
        "require_escalated"] := choice_field hproperties rfl
  obtain ⟨justification, hjustification⟩ : ∃ text, fieldOr fields "justification" none
    (decodeOption Value.asStr) = some text := optionalString_field hproperties rfl
  obtain ⟨prefixRule, hprefixRule⟩ : ∃ texts, fieldOr fields "prefix_rule" none
      (decodeOption decodeStrings) = some texts := by
    refine fieldOr_some none fun field hfield => ?_
    exact prefixRule_field (field_satisfies hproperties rfl hfield)
  have hyield : (fieldOr fields "yield_time_ms" 10000 decodeU64).isSome = _ := fieldOr_u64 10000
  have hbudget : (fieldOr fields "max_output_tokens" none (decodeOption decodeU64)).isSome = _ :=
    fieldOr_optionU64 (number_field hproperties rfl)
  rw [numbersFit, ← hyield, ← hbudget]
  simp only [Decodes, decodeExecCommandArgs, hstruct, hcmd, hworkdir, htty, hshell, hlogin,
    hpermissions, hjustification, hprefixRule, Option.bind_eq_bind, Option.bind_some, Option.pure_def]
  cases fieldOr fields "yield_time_ms" 10000 decodeU64 with
  | none => simp
  | some yieldTimeMs =>
    cases fieldOr fields "max_output_tokens" none (decodeOption decodeU64) with
    | none => simp
    | some maxOutputTokens => simp

/-- Whether `write_stdin` arguments decode is up to three numbers. -/
theorem writeStdin_decodes {fields : JsonObject}
    (h : satisfies (.object writeStdinParameters) (.object fields) = true) :
    Decodes writeStdin (.object fields) ↔ numbersFit writeStdin (.object fields) = true := by
  obtain ⟨hproperties, hknown, -⟩ := closedObject_fields h
  have hstruct : structFields ["session_id", "chars", "yield_time_ms", "max_output_tokens"]
      (.object fields) = some fields := structFields_closed hknown rfl
  obtain ⟨chars, hchars⟩ : ∃ text, fieldOr fields "chars" "" Value.asStr = some text := by
    refine fieldOr_some "" fun field hfield => ?_
    obtain ⟨text, rfl⟩ := string_field hproperties rfl field hfield
    exact ⟨text, rfl⟩
  have hsession : (field fields "session_id" decodeI32).isSome = _ := decodeI32_isSome _
  have hyield : (fieldOr fields "yield_time_ms" 250 decodeU64).isSome = _ := fieldOr_u64 250
  have hbudget : (fieldOr fields "max_output_tokens" none (decodeOption decodeU64)).isSome = _ :=
    fieldOr_optionU64 (number_field hproperties rfl)
  rw [numbersFit, ← hsession, ← hyield, ← hbudget]
  simp only [Decodes, decodeWriteStdinArgs, hstruct, hchars, Option.bind_eq_bind, Option.bind_some,
    Option.pure_def]
  cases field fields "session_id" decodeI32 with
  | none => simp
  | some sessionId =>
    cases fieldOr fields "yield_time_ms" 250 decodeU64 with
    | none => simp
    | some yieldTimeMs =>
      cases fieldOr fields "max_output_tokens" none (decodeOption decodeU64) with
      | none => simp
      | some maxOutputTokens => simp

/-- `view_image` arguments decode, and their detail is one that is known. -/
theorem viewImage_decodes {fields : JsonObject}
    (h : satisfies (.object viewImageParameters) (.object fields) = true) :
    ∃ path detail, FilesystemTools.decodeViewImageArgs (.object fields) = some (path, detail) ∧
      ∀ word ∈ detail, word ∈ ["high", "original"] := by
  obtain ⟨hproperties, hknown, hrequired⟩ := closedObject_fields h
  have hstruct : structFields ["path", "detail"] (.object fields) = some fields :=
    structFields_closed hknown rfl
  obtain ⟨pathField, hpathField⟩ := hrequired "path" (by decide)
  obtain ⟨path, rfl⟩ := string_field hproperties rfl pathField hpathField
  have hpath : field fields "path" Value.asStr = some path := by
    rw [field, hpathField]
    rfl
  obtain ⟨detail, hdetail, hknown⟩ : ∃ word, fieldOr fields "detail" none
      (decodeOption Value.asStr) = some word ∧ ∀ text ∈ word, text ∈ ["high", "original"] :=
    choice_field hproperties rfl
  refine ⟨path, detail, ?_, hknown⟩
  simp only [FilesystemTools.decodeViewImageArgs, hstruct, hpath, hdetail, Option.bind_eq_bind,
    Option.bind_some, Option.pure_def]

/-- For arguments of a schema, decoding is up to the numbers among them. -/
theorem decodes_iff {tool : JsonTool} {v : Value}
    (h : satisfies (.object tool.parameters) v = true) :
    tool.Decodes v ↔ tool.numbersFit v = true := by
  cases tool with
  | execCommand =>
    obtain ⟨fields, rfl⟩ := satisfies_closedObject h
    exact execCommand_decodes h
  | writeStdin =>
    obtain ⟨fields, rfl⟩ := satisfies_closedObject h
    exact writeStdin_decodes h
  | viewImage =>
    obtain ⟨fields, rfl⟩ := satisfies_closedObject h
    obtain ⟨path, detail, hdecoded, -⟩ := viewImage_decodes h
    exact ⟨fun _ => rfl, fun _ => ⟨_, hdecoded⟩⟩

/-! ## Refusals -/

section

variable {lib : Foreign} {call : ToolCallState} {v : Value} {config : BasicCodexConfig}

theorem resolveWorkdir_error {base : String} {requested : Option String} {failure : ShellToolError}
    (h : resolveWorkdir base requested = .error failure) :
    failure = { message := "workdir contains a NUL byte" } := by
  rw [resolveWorkdir] at h
  split at h
  · cases h
  · split at h
    · cases h
      rfl
    · split at h <;> cases h

theorem parseShell_error {shell : String} {failure : ShellToolError}
    (h : parseShell shell = .error failure) :
    failure = { message := "unsupported shell " ++ shell } := by
  simp only [parseShell] at h
  split at h <;> cases h
  rfl

/-- What `exec_command` says of arguments that decode. -/
theorem prepareExec_semantic {args : ExecCommandArgs} {platformSessionId : SessionId}
    {turnId draw : Uuid} {startedAtMs : Int} {failure : ShellToolError}
    (input : call.input = .json v) (decoded : decodeExecCommandArgs v = some args)
    (h : prepareExec lib call config platformSessionId turnId startedAtMs draw = .error failure) :
    Semantic execCommand (toolError "invalid_tool_arguments" failure.message) := by
  have hinput : jsonInput call = .ok v := by rw [jsonInput, input]
  rw [prepareExec, Fallible.ok_bind hinput, decoded] at h
  dsimp only at h
  split at h
  · cases h
    exact .emptyCommand
  · cases hworkdir : resolveWorkdir config.cwd args.workdir with
    | error failure' =>
      rw [hworkdir] at h
      cases h
      rw [resolveWorkdir_error hworkdir]
      exact .nulInWorkdir
    | ok cwd =>
      rw [Fallible.ok_bind hworkdir] at h
      cases hshell : args.shell with
      | none =>
        rw [hshell] at h
        cases h
      | some shell =>
        rw [hshell, Option.mapM_some] at h
        cases hparsed : parseShell shell with
        | error failure' =>
          rw [hparsed] at h
          cases h
          rw [parseShell_error hparsed]
          exact .unsupportedShell shell
        | ok parsed =>
          rw [hparsed] at h
          cases h

/-- What `write_stdin` says of arguments that decode. -/
theorem prepareWrite_semantic {args : WriteStdinArgs} {executions : List TrackedExecution}
    {turnId draw : Uuid} {startedAtMs : Int} {failure : ShellToolError}
    (input : call.input = .json v) (decoded : decodeWriteStdinArgs v = some args)
    (h : prepareWrite lib call executions turnId startedAtMs draw = .error failure) :
    Semantic writeStdin (toolError "invalid_tool_arguments" failure.message) := by
  have hinput : jsonInput call = .ok v := by rw [jsonInput, input]
  rw [prepareWrite, Fallible.ok_bind hinput, decoded] at h
  dsimp only at h
  split at h
  · cases h
    exact .unknownSession args.sessionId
  · cases h

/-- What `view_image` says of arguments that decode to a known detail. -/
theorem prepareViewImage_semantic {path : String} {detail : Option String}
    {snapshot : ToolResultSnapshot} (input : call.input = .json v)
    (decoded : FilesystemTools.decodeViewImageArgs v = some (path, detail))
    (known : ∀ word ∈ detail, word ∈ ["high", "original"])
    (h : FilesystemTools.prepareViewImage lib call config = .error snapshot) :
    Semantic viewImage snapshot := by
  have hdetail : ∃ choice, FilesystemTools.detailOf detail = .ok choice := by
    cases detail with
    | none => exact ⟨.high, rfl⟩
    | some word =>
      have hword : word = "high" ∨ word = "original" := by simpa using known word rfl
      rcases hword with rfl | rfl
      · exact ⟨.high, rfl⟩
      · exact ⟨.original, rfl⟩
  obtain ⟨choice, hchoice⟩ := hdetail
  simp only [FilesystemTools.prepareViewImage, input, decoded, hchoice] at h
  cases hpath : FilesystemTools.validatePath path with
  | ok _ =>
    rw [hpath] at h
    cases h
  | error failure =>
    rw [hpath] at h
    cases h
    rw [FilesystemTools.validatePath, FilesystemTools.validatePatchPath] at hpath
    split at hpath
    · cases hpath
      exact .invalidPath
    · cases hpath

end

/-! ## What the tools accept -/

/-- A tool of the catalog advertises the schema of its arguments. -/
theorem descriptor_of_name {lib : Foreign} {tool : JsonTool} {descriptor : ToolDescriptor}
    (h : ToolCatalog.descriptor lib tool.name = some descriptor) :
    descriptor.parameters = some tool.parameters := by
  cases tool <;> simp [ToolCatalog.descriptor, descriptors, functionTool, toolName, name] at h <;>
    rw [← h] <;> rfl

/-- Arguments that satisfy the schema leave their call pending. -/
theorem pending_of_satisfies {lib : Foreign} {tool : JsonTool} {v item : Value} {arguments : String}
    {descriptor : ToolDescriptor} (h : satisfies (.object tool.parameters) v = true)
    (written : (item.get "arguments").bind Value.asStr = some arguments)
    (parsed : lib.parseJson arguments = .ok v)
    (listed : ToolCatalog.descriptor lib tool.name = some descriptor) :
    ToolPlan.parseFunctionInput lib item descriptor = (.json v, .pending) := by
  rw [ToolPlan.parseFunctionInput, written]
  dsimp only
  rw [parsed]
  dsimp only
  rw [descriptor_of_name listed, Option.getD_some, if_pos h]

/-- A pending `write_stdin` call is serialised by the session that it looks up. -/
theorem resourceSessionId_pending {call : ToolCallState} {fields : JsonObject} {args : WriteStdinArgs}
    (named : call.name = "write_stdin") (input : call.input = .json (.object fields))
    (pending : call.status = .pending) (decoded : decodeWriteStdinArgs (.object fields) = some args) :
    ToolExecution.resourceSessionId call = some args.sessionId := by
  have hsession : field fields "session_id" decodeI32 = some args.sessionId := by
    simp only [decodeWriteStdinArgs, Option.bind_eq_bind, Option.bind_eq_some_iff,
      Option.pure_def] at decoded
    obtain ⟨fields', hfields, sessionId, hsession, chars, -, yieldTimeMs, -, budget, -, hargs⟩ := decoded
    rw [structFields] at hfields
    split at hfields
    · cases hfields
      cases hargs
      exact hsession
    · cases hfields
  rw [ToolExecution.resourceSessionId, pending]
  dsimp only
  rw [if_pos named, input, inputSessionId_json]
  exact hsession

/-- Whatever the harness, a call whose arguments decode is refused for a semantic reason only. -/
theorem prepareCall_semantic {lib : Foreign} {fl : FilesystemTools.FileLib}
    {harness : BasicCodexHarness} {config : BasicCodexConfig} {tool : JsonTool} {v : Value}
    (h : satisfies (.object tool.parameters) v = true) (decodes : tool.Decodes v)
    {call : ToolCallState} {executions : List TrackedExecution} {invocation : Invocation}
    {turnId draw : Uuid} {ordinal : Nat} {snapshot : ToolResultSnapshot}
    (named : call.name = tool.name) (input : call.input = .json v) (pending : call.status = .pending)
    (refused : ToolExecution.prepareCall (equipped lib fl harness config) executions invocation turnId
      call ordinal draw = some (.error snapshot)) : tool.Semantic snapshot := by
  rw [ToolExecution.prepareCall, pending] at refused
  dsimp only at refused
  rw [Option.some_inj] at refused
  cases tool with
  | execCommand =>
    obtain ⟨args, hargs⟩ := decodes
    have hname : call.name = "exec_command" := named
    rw [ShellTools.prepareNew, if_pos hname] at refused
    cases hprepared : prepareExec lib call config invocation.platformSessionId turnId
        invocation.timestampMs draw with
    | error failure =>
      simp only [equipped, hprepared] at refused
      cases refused
      exact prepareExec_semantic input hargs hprepared
    | ok operation =>
      simp only [equipped, hprepared] at refused
      cases refused
  | writeStdin =>
    obtain ⟨args, hargs⟩ := decodes
    have hname : call.name = "write_stdin" := named
    have hother : call.name ≠ "exec_command" := by
      rw [hname]
      decide
    rw [ShellTools.prepareNew, if_neg hother, if_pos hname] at refused
    cases hprepared : prepareWrite lib call executions turnId invocation.timestampMs draw with
    | error failure =>
      simp only [equipped, hprepared] at refused
      cases refused
      exact prepareWrite_semantic input hargs hprepared
    | ok operation =>
      simp only [equipped, hprepared] at refused
      cases refused
  | viewImage =>
    obtain ⟨fields, rfl⟩ := satisfies_closedObject h
    obtain ⟨path, detail, hdecoded, hknown⟩ := viewImage_decodes h
    have hname : call.name = "view_image" := named
    have hother : call.name ≠ "exec_command" ∧ call.name ≠ "write_stdin" := by
      rw [hname]
      decide
    rw [ShellTools.prepareNew, if_neg hother.1, if_neg hother.2] at refused
    simp only [equipped, FilesystemTools.tools, FilesystemTools.prepareNew, if_pos hname] at refused
    cases hprepared : FilesystemTools.prepareViewImage lib call config with
    | error failure =>
      rw [hprepared] at refused
      cases refused
      exact prepareViewImage_semantic input hdecoded hknown hprepared
    | ok operation =>
      rw [hprepared] at refused
      cases refused

/-- A tool takes arguments of its schema exactly when the numbers among them are integers of the width
that the typed record has for them. -/
theorem arguments_accepted_iff {tool : JsonTool} {v : Value}
    (h : satisfies (.object tool.parameters) v = true) :
    tool.Accepts v ↔ tool.numbersFit v = true := by
  refine ⟨fun accepts => (decodes_iff h).mp accepts.decodes, fun fits => ?_⟩
  have hdecodes := (decodes_iff h).mpr fits
  refine
    { pending := fun lib item arguments descriptor => pending_of_satisfies h
      decodes := hdecodes
      serialised := ?_
      refused := fun lib fl harness config call executions invocation turnId ordinal draw snapshot =>
        prepareCall_semantic h hdecodes }
  rintro rfl call args named input pending decoded
  obtain ⟨fields, rfl⟩ := satisfies_closedObject h
  exact resourceSessionId_pending named input pending decoded

/-- A command with a wait. -/
def waiting (cmd : String) (wait : Number) : Value :=
  .object [("cmd", .string cmd), ("yield_time_ms", .number wait)]

/-- The schema of `exec_command` admits every wait. -/
theorem satisfies_waiting (cmd : String) (wait : Number) :
    satisfies (.object (parameters execCommand)) (waiting cmd wait) = true := by
  simp [parameters, execCommandParameters, closedObject, satisfies, satisfiesKeywords,
    satisfiesKeyword, satisfiesProperties, waiting, hasJsonType, hasRequired, hasOnly, property,
    choice, Value.get, Value.asStr]

/-- A command that waits for a second is accepted. -/
theorem arguments_accepted_second : Accepts execCommand (waiting "ls" (.posInt 1000)) :=
  (arguments_accepted_iff (satisfies_waiting "ls" (.posInt 1000))).mpr rfl

/-- A wait of one and a half milliseconds, which is a `number`. -/
def fractionalWait : Value := waiting "ls" (.float "1.5")

def fractionalCall : ToolCallState where
  callId := "a"
  name := "exec_command"
  ordinal := 0
  kind := .function
  input := .json fractionalWait
  scheduling := .parallelSafe
  status := .pending

/-- The schema of `exec_command` admits it, and every harness refuses it as malformed. -/
theorem fractional_wait_malformed :
    satisfies (.object (parameters execCommand)) fractionalWait = true ∧
      ¬Accepts execCommand fractionalWait ∧
      ∀ lib fl harness config executions invocation turnId ordinal draw,
        ToolExecution.prepareCall (equipped lib fl harness config) executions invocation turnId
          fractionalCall ordinal draw =
          some (.error (toolError "invalid_tool_arguments"
            ("invalid exec_command arguments: " ++ lib.argumentsError fractionalWait))) := by
  refine ⟨satisfies_waiting "ls" (.float "1.5"), fun accepts => ?_,
    fun lib fl harness config executions invocation turnId ordinal draw => ?_⟩
  · obtain ⟨args, hargs⟩ := accepts.decodes
    cases hargs
  · rfl

end JsonTool

end AgentPlatform.Harness
