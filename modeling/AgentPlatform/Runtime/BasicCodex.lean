import AgentPlatform.Harness.Run
import AgentPlatform.Harness.Text
import AgentPlatform.Runtime.Harnesses

/-!
# The basic Codex harness behind the runtime

`config.rs` and `harness.rs` of `basic-codex-harness`: what a configuration has to satisfy, and the
harness as the adapter of the runtime drives it.
-/

namespace AgentPlatform.Runtime

open Harness (BasicCodexConfig BasicCodexHarness BasicCodexModel BasicCodexState ReasoningEffort
  isBlank byteLength)

/-! ## Configurations -/

inductive ConfigError where
  | nilAccountId
  | nilMachineId
  | emptyWorkingDirectory
  | workingDirectoryTooLong
  | workingDirectoryContainsNul
  | workingDirectoryNotAbsolute
  | emptyEnvironmentLabel (field : String)
  | environmentLabelTooLarge (field : String)
  | environmentLabelContainsNul (field : String)
  | emptyAdditionalInstructions
  | additionalInstructionsTooLarge
  | unsupportedReasoningEffort

/-- `Display for ConfigError`. -/
def ConfigError.toText : ConfigError → String
  | .nilAccountId => "account_id must not be the nil UUID"
  | .nilMachineId => "machine_id must not be the nil UUID"
  | .emptyWorkingDirectory => "cwd must not be empty"
  | .workingDirectoryTooLong => "cwd must not exceed 4096 bytes"
  | .workingDirectoryContainsNul => "cwd must not contain a NUL character"
  | .workingDirectoryNotAbsolute => "cwd must be an absolute POSIX, Windows drive, or UNC path"
  | .emptyEnvironmentLabel field => field ++ " must not be empty or only whitespace"
  | .environmentLabelTooLarge field => field ++ " must not exceed 256 bytes"
  | .environmentLabelContainsNul field => field ++ " must not contain a NUL character"
  | .emptyAdditionalInstructions => "additional_instructions must not be empty or only whitespace"
  | .additionalInstructionsTooLarge => "additional_instructions must not exceed 65536 bytes"
  | .unsupportedReasoningEffort => "reasoning_effort is not supported by the selected model"

/-- `is_platform_absolute`. -/
def isPlatformAbsolute (path : String) : Bool :=
  match path.toList with
  | '/' :: _ | '\\' :: '\\' :: _ => true
  | drive :: ':' :: separator :: _ => drive.isAlpha && (separator == '/' || separator == '\\')
  | _ => false

/-- `WorkingDirectory::validate`. -/
def validateWorkingDirectory (path : String) : Except ConfigError Unit :=
  if isBlank path then .error .emptyWorkingDirectory
  else if byteLength path.toList > 4 * 1024 then .error .workingDirectoryTooLong
  else if path.contains '\x00' then .error .workingDirectoryContainsNul
  else if !isPlatformAbsolute path then .error .workingDirectoryNotAbsolute
  else .ok ()

/-- `validate_environment_label`. -/
def validateEnvironmentLabel (value : Option String) (field : String) : Except ConfigError Unit :=
  match value with
  | none => .ok ()
  | some value =>
    if isBlank value then .error (.emptyEnvironmentLabel field)
    else if byteLength value.toList > 256 then .error (.environmentLabelTooLarge field)
    else if value.contains '\x00' then .error (.environmentLabelContainsNul field)
    else .ok ()

/-- `SUPPORTED_REASONING_EFFORTS`, the `allowed_reasoning_efforts` of every model's profile. -/
def supportedReasoningEfforts : List ReasoningEffort := [.low, .medium, .high, .xhigh, .max]

/-- `BasicCodexModel::supports`. -/
def supports (_ : BasicCodexModel) (effort : ReasoningEffort) : Bool :=
  supportedReasoningEfforts.contains effort

/-- `BasicCodexConfig::validate`. The nil uuid is the number 0. -/
def validateConfig (config : BasicCodexConfig) : Except ConfigError Unit :=
  if config.accountId = 0 then .error .nilAccountId
  else if config.machineId = 0 then .error .nilMachineId
  else do
    validateWorkingDirectory config.cwd
    validateEnvironmentLabel config.shell "shell"
    validateEnvironmentLabel config.platform "platform"
    if !supports config.model config.reasoningEffort then .error .unsupportedReasoningEffort
    else
      match config.additionalInstructions with
      | none => .ok ()
      | some instructions =>
        if isBlank instructions then .error .emptyAdditionalInstructions
        else if byteLength instructions.toList > 64 * 1024 then
          .error .additionalInstructionsTooLarge
        else .ok ()

/-! ## The harness -/

/-- `Harness for BasicCodexHarness`. -/
def basicCodex (lib : Harness.Foreign) (files : Harness.FileTools) (harness : BasicCodexHarness) :
    TypedHarness BasicCodexConfig BasicCodexState where
  validateConfig config := (validateConfig config).mapError (·.toText)
  initialState config :=
    match validateConfig config with
    | .error error => .error ("invalid configuration: " ++ error.toText)
    | .ok () => .ok .initial
  handle config := Harness.Handler.handle { lib, files, harness, config }

theorem basicCodex_initialState {lib : Harness.Foreign} {files : Harness.FileTools}
    {harness : BasicCodexHarness} {config : BasicCodexConfig} {state : BasicCodexState}
    (h : (basicCodex lib files harness).initialState config = .ok state) : state = .initial := by
  unfold basicCodex at h
  dsimp only at h
  split at h
  · cases h
  · exact (Except.ok.inj h).symm

theorem basicCodex_starts {lib : Harness.Foreign} {files : Harness.FileTools}
    {harness : BasicCodexHarness} {config : BasicCodexConfig}
    (valid : validateConfig config = .ok ()) :
    (basicCodex lib files harness).initialState config = .ok .initial := by
  unfold basicCodex
  dsimp only
  rw [valid]

/-- `HARNESS_ID`. -/
def harnessId : HarnessId := "basic-codex"

/-- `HARNESS_VERSION`. -/
def harnessVersion : HarnessVersion := "1"

end AgentPlatform.Runtime
