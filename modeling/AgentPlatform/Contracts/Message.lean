import AgentPlatform.Contracts.Kinds

/-!
# Messages

`agent-contracts/src/message.rs`: the conversation messages that the history stores and that LLM
requests carry. Assistant items, tool-result details and custom data are raw JSON text; metadata is
a JSON object.
-/

namespace AgentPlatform

abbrev Metadata := List (String × Value)

inductive ImageDetail where
  | auto
  | low
  | high
  | original
deriving DecidableEq, Repr, Inhabited

inductive ContentPart where
  | text (text : String) (metadata : Option Metadata)
  | image (url : String) (detail : Option ImageDetail) (metadata : Option Metadata)
deriving Repr, Inhabited

structure TextContent where
  text : String
  metadata : Option Metadata
deriving Repr, Inhabited

inductive Provider where
  | openai
  | chatgpt
  | fireworks
deriving DecidableEq, Repr, Inhabited

structure ToolResultError where
  message : String
  name : Option String
deriving DecidableEq, Repr, Inhabited

inductive ToolResultOutcome where
  | success
  | error (error : ToolResultError)
deriving DecidableEq, Repr, Inhabited

structure MessageBase where
  id : Option String
  timestamp : Option Int
  metadata : Option Metadata
deriving Repr, Inhabited

/-- `MessageBase::default()`. -/
def MessageBase.default : MessageBase := { id := none, timestamp := none, metadata := none }

inductive Message where
  | user (base : MessageBase) (content : List ContentPart)
  | system (base : MessageBase) (content : List TextContent)
  | assistant (base : MessageBase) (provider : Provider) (content : List RawJson)
  | toolResult (base : MessageBase) (toolName : String) (toolCallId : String)
      (content : List ContentPart) (outcome : ToolResultOutcome) (details : Option RawJson)
  | custom (base : MessageBase) (tag : String) (data : RawJson)
deriving Repr, Inhabited

namespace Message

/-- `matches!(message, Message::User { .. })`. -/
def isUser : Message → Bool
  | .user .. => true
  | _ => false

/-- `matches!(message, Message::Assistant { .. })`. -/
def isAssistant : Message → Bool
  | .assistant .. => true
  | _ => false

/-- `message_role` of the store: the word the `role` column keeps. -/
def role : Message → String
  | .user .. => "user"
  | .assistant .. => "assistant"
  | .toolResult .. => "tool_result"
  | .system .. => "system"
  | .custom .. => "custom"

/-- `Message::user_text`. -/
def userText (text : String) : Message := .user .default [.text text none]

end Message

end AgentPlatform
