import ContentSchema.Entries
import ContentSchema.Json.Number

/-! # JSON values

The values that are written as JSON and that a document read as a whole holds.
-/

namespace ContentSchema.Json

inductive Value where
  | null
  | bool (b : Bool)
  | num (n : Number)
  | str (s : String)
  | list (items : List Value)
  | object (members : List (String × Value))
  deriving Inhabited

namespace Value

def member? (key : String) : Value → Option Value
  | object members => members.lookup key
  | _ => none

def text? : Value → Option String
  | str s => some s
  | _ => none

/-- The member `key`, if it has a value to write. -/
def optional (key : String) (value : Option Value) : List (String × Value) :=
  value.toList.map (key, ·)

end Value

end ContentSchema.Json
