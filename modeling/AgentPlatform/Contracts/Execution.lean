import AgentPlatform.Contracts.Message

/-!
# The execution protocol

The part of the process-execution protocol that the platform builds and reads. The protocol's own
crates are not part of the repository: a request is modelled as far as the harness builds it, and a
response as far as the harness reads it. What a response carries is JSON text that the harness
decodes.
-/

namespace AgentPlatform.Execution

structure ExecutionHandle where
  id : Uuid
  generationId : Uuid
deriving DecidableEq, Repr, Inhabited

/-- The state of a process. The platform tells a finished process from any other. -/
inductive ExecutionState where
  | unfinished (word : String)
  | finished
deriving DecidableEq, Repr, Inhabited

inductive ExecutionResult where
  | exited (exitCode : Option Int) (signal : Option Int)
  | terminated (exitCode : Option Int) (signal : Option Int)
  | startFailed (message : String)
  | lost (message : String)
deriving DecidableEq, Repr, Inhabited

set_option linter.dupNamespace false in
/-- A process as the runtime reports it. -/
structure Execution where
  handle : ExecutionHandle
  state : ExecutionState
  result : Option ExecutionResult
  outputIncomplete : Bool
deriving DecidableEq, Repr, Inhabited

inductive ShellKind where
  | bash
  | zsh
  | sh
  | powerShell
  | cmd
deriving DecidableEq, Repr, Inhabited

structure Shell where
  kind : ShellKind
  path : String
deriving DecidableEq, Repr, Inhabited

inductive IoMode where
  | pipes (stdin : Bool)
  | pty (rows cols : Nat)
deriving DecidableEq, Repr, Inhabited

/-- The parameters of `Start` with a shell command. -/
structure StartParams where
  startId : String
  script : String
  shell : Option Shell
  login : Bool
  cwd : String
  snapshotScope : String
  io : IoMode
  waitMs : Nat
  maxOutputBytes : Nat
  labels : List (String × String)
deriving DecidableEq, Repr, Inhabited

/-- The parameters of `Observe`, which returns when the process finished or the wait is over. -/
structure ObserveParams where
  handle : ExecutionHandle
  afterCursor : Option String
  waitMs : Nat
  maxOutputBytes : Nat
deriving DecidableEq, Repr, Inhabited

/-- The parameters of `List` for the active processes. -/
structure ListParams where
  labels : List (String × String)
  limit : Nat
  pageCursor : Option String
deriving DecidableEq, Repr, Inhabited

/-- What must hold of a file for a mutation to be made. -/
inductive FilePrecondition where
  | missing
  | sha256 (sha256 : String)
deriving DecidableEq, Repr, Inhabited

structure ReadFileParams where
  cwd : Option String
  path : String
  maxBytes : Option Nat
deriving DecidableEq, Repr, Inhabited

structure WriteFileParams where
  mutationId : String
  cwd : Option String
  path : String
  dataBase64 : String
  createParentDirectories : Bool
  precondition : FilePrecondition
deriving DecidableEq, Repr, Inhabited

structure RemoveFileParams where
  mutationId : String
  cwd : Option String
  path : String
  precondition : FilePrecondition
deriving DecidableEq, Repr, Inhabited

/-- An operation of the protocol. -/
inductive Operation where
  | start (params : StartParams)
  | observe (params : ObserveParams)
  | writeInput (handle : ExecutionHandle) (inputId : String) (dataBase64 : String)
  | interrupt (handle : ExecutionHandle) (operationId : String)
  | terminate (handle : ExecutionHandle) (gracePeriodMs : Nat)
  | list (params : ListParams)
  | readFile (params : ReadFileParams)
  | writeFile (params : WriteFileParams)
  | removeFile (params : RemoveFileParams)
deriving DecidableEq, Repr, Inhabited

structure BatchOperation where
  requestId : String
  operation : Operation
deriving DecidableEq, Repr, Inhabited

inductive BatchMode where
  | sequential
  | parallel
deriving DecidableEq, Repr, Inhabited

inductive Payload where
  | single (operation : Operation)
  | batch (mode : BatchMode) (acceptedErrorCodes : List String) (operations : List BatchOperation)
deriving DecidableEq, Repr, Inhabited

/-- `execution::Outcome`: the result is JSON that the caller decodes. -/
inductive Outcome where
  | ok (result : Value)
  | error (code message : String)
deriving Repr, Inhabited

structure Response where
  generationId : Uuid
  outcome : Outcome
deriving Repr, Inhabited

end AgentPlatform.Execution
