import Mathlib.Algebra.Order.Ring.Int

/-!
# Identifiers, time and JSON text

`agent-contracts/src/ids.rs` wraps uuids and `i64` counters in newtypes. Here they are the
underlying values under the same names: an identifier is a number drawn from a supply, a counter
is a natural number. `RawJson` is `Box<RawValue>`: JSON text kept verbatim.
-/

namespace AgentPlatform

/-- A uuid. `Uuid::new_v4` is a draw of a number that was not drawn before. -/
abbrev Uuid := Nat

/-- The text of a uuid, as `Display` writes it. -/
def Uuid.toText (id : Uuid) : String := toString id

/-- A text names one uuid. -/
theorem Uuid.toText_injective {a b : Uuid} (h : a.toText = b.toText) : a = b := by
  have hdigits : Nat.toDigits 10 a = Nat.toDigits 10 b := by
    rw [← Nat.toList_repr, ← Nat.toList_repr]
    exact congrArg String.toList h
  have hvalue := congrArg (fun digits => Nat.ofDigitChars 10 digits 0) hdigits
  simpa only [Nat.ofDigitChars_toDigits (by decide : 1 < 10) (Nat.le_refl 10)] using hvalue

abbrev SessionId := Uuid
abbrev EventId := Uuid
abbrev HistoryEntryId := Uuid
abbrev OperationId := Uuid
abbrev WaitId := Uuid

abbrev ProjectId := String
abbrev HarnessId := String
abbrev HarnessVersion := String
abbrev GatewayConnectionId := String

abbrev EventSequence := Nat
abbrev HistorySequence := Nat
abbrev StateVersion := Nat

/-- `DateTime<Utc>`, in microseconds. -/
abbrev Timestamp := Int

/-- JSON text, kept byte for byte. -/
abbrev RawJson := String

/-- `serde_json::Number`: an unsigned, a negative, or a floating-point number. A float is kept as
its digits; no modelled function computes with it. -/
inductive Number where
  | posInt (n : UInt64)
  | negInt (n : Int64)
  | float (digits : String)
deriving DecidableEq, Repr, Inhabited

/-- `serde_json::Value`. An object keeps its fields in order. -/
inductive Value where
  | null
  | bool (b : Bool)
  | number (n : Number)
  | string (text : String)
  | array (items : List Value)
  | object (fields : List (String × Value))
deriving Repr, Inhabited

namespace Value

/-- `json!` of a natural number. -/
def nat (n : Nat) : Value := .number (.posInt (UInt64.ofNat n))

/-- `json!` of a uuid. -/
def uuid (id : Uuid) : Value := .string id.toText

/-- `Value::get` with a string key: the field of an object, nothing of any other value. -/
def get (v : Value) (key : String) : Option Value :=
  match v with
  | .object fields => (fields.find? (·.1 == key)).map (·.2)
  | _ => none

/-- `Value::as_str`. -/
def asStr : Value → Option String
  | .string text => some text
  | _ => none

/-- `Value::as_i64`: integers of the signed 64-bit range only, never a float. -/
def asI64 : Value → Option Int
  | .number (.posInt n) => if n.toNat < 2 ^ 63 then some n.toNat else none
  | .number (.negInt n) => some n.toInt
  | _ => none

mutual

/-- Whether a value mentions the character U+0000 in a string or a key. -/
def mentionsNul : Value → Bool
  | .string text => text.contains '\x00'
  | .array items => mentionsNulItems items
  | .object fields => mentionsNulFields fields
  | _ => false

def mentionsNulItems : List Value → Bool
  | [] => false
  | v :: vs => v.mentionsNul || mentionsNulItems vs

def mentionsNulFields : List (String × Value) → Bool
  | [] => false
  | (key, v) :: fields => key.contains '\x00' || v.mentionsNul || mentionsNulFields fields

end

end Value

end AgentPlatform
