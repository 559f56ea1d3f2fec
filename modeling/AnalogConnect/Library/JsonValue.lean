import Mathlib.Data.List.Basic

/-!
# JSON values

Values as `serde_json` has them once parsed, and what is asked of one: a member by its key, a value
by a pointer, and the string or the unsigned integer a value is. An object's keys are distinct.
-/

inductive JsonNumber
  | posInt (n : UInt64)
  | negInt (n : Int64)
  | float (bits : UInt64)
deriving DecidableEq

inductive JsonValue
  | null
  | bool (b : Bool)
  | number (n : JsonNumber)
  | string (s : String)
  | array (elements : List JsonValue)
  | object (members : List (String × JsonValue))

namespace JsonValue

/-- An array index of a pointer: digits without a zero in front. -/
def parseIndex (token : String) : Option ℕ :=
  if token.toList.head? = some '0' ∧ token ≠ "0" then none
  else if token ≠ "" ∧ token.toList.all Char.isDigit then
    some (token.toList.foldl (fun n c => 10 * n + (c.toNat - 48)) 0)
  else none

/-- `get` of a key. -/
def get (key : String) : JsonValue → Option JsonValue
  | .object members => (members.find? (·.1 = key)).map (·.2)
  | _ => none

/-- One token of a pointer followed. -/
def follow (token : String) : JsonValue → Option JsonValue
  | .object members => (members.find? (·.1 = token)).map (·.2)
  | .array elements => (parseIndex token).bind fun index => elements[index]?
  | _ => none

/-- `pointer`, by its tokens. -/
def pointer (tokens : List String) (value : JsonValue) : Option JsonValue :=
  tokens.foldlM (fun value token => value.follow token) value

def asStr : JsonValue → Option String
  | .string s => some s
  | _ => none

def asU64 : JsonValue → Option UInt64
  | .number (.posInt n) => some n
  | _ => none

def asArray : JsonValue → Option (List JsonValue)
  | .array elements => some elements
  | _ => none

end JsonValue
