import ContentSchema.Json.Number
import ContentSchema.Text.Quoted

/-! # Faults of a document

Why a JSON document is refused: it breaks the grammar, or it has another form than its reader wants.
-/

namespace ContentSchema.Json

/-- What stands where something else is wanted. -/
inductive Found where
  | null
  | bool (b : Bool)
  | num (n : Number)
  | str (s : String)
  | list
  | object
  /-- A variant given by its name alone. -/
  | bareVariant
  deriving DecidableEq

inductive Wanted where
  | string
  | path
  | boolean
  | list
  | map
  | record (name : String)
  | items (name : String) (count : Nat)
  | variantName
  | variantIndex (count : Nat)
  | variant
  | singleVariant
  | payload
  | nothing
  | sequence (count : Nat)
  | shorterList
  deriving DecidableEq

inductive Fault where
  | grammar
  | type (found : Found) (wanted : Wanted)
  | value (found : Found) (wanted : Wanted)
  | length (count : Nat) (wanted : Wanted)
  | missingMember (key : String)
  | repeatedMember (key : String)
  | strangeMember (key : String) (known : List String)
  | strangeVariant (name : String) (known : List String)
  /-- No alternative of this name fits. -/
  | noAlternative (name : String)
  deriving DecidableEq

namespace Found

def text : Found → String
  | null => "null"
  | bool b => s!"boolean `{b}`"
  | num (.whole n) => s!"integer `{n}`"
  | num (.double bits) => s!"floating point `{Number.doubleText bits}`"
  | str s => "string " ++ Text.quoted s
  | list => "sequence"
  | object => "map"
  | bareVariant => "unit variant"

end Found

namespace Wanted

def counted (count : Nat) : String := s!"{count} " ++ if count = 1 then "element" else "elements"

def text : Wanted → String
  | string => "a string"
  | path => "path string"
  | boolean => "a boolean"
  | list => "a sequence"
  | map => "a map"
  | record name => "struct " ++ name
  | items name count => "struct " ++ name ++ " with " ++ counted count
  | variantName => "variant identifier"
  | variantIndex count => s!"variant index 0 <= i < {count}"
  | variant => "string or map"
  | singleVariant => "map with a single key"
  | payload => "newtype variant"
  | nothing => "unit"
  | sequence count => counted count ++ " in sequence"
  | shorterList => "fewer elements in array"

end Wanted

namespace Fault

def choice (names : List String) : String :=
  match names.map fun name => s!"`{name}`" with
  | [] => "nothing"
  | [a] => a
  | [a, b] => a ++ " or " ++ b
  | many => "one of " ++ String.intercalate ", " many

def message : Fault → String
  | grammar => "JSON syntax error"
  | type found wanted => "invalid type: " ++ found.text ++ ", expected " ++ wanted.text
  | value found wanted => "invalid value: " ++ found.text ++ ", expected " ++ wanted.text
  | length count wanted => s!"invalid length {count}, expected " ++ wanted.text
  | missingMember key => s!"missing field `{key}`"
  | repeatedMember key => s!"duplicate field `{key}`"
  | strangeMember key known => s!"unknown field `{key}`, expected " ++ choice known
  | strangeVariant name known => s!"unknown variant `{name}`, expected " ++ choice known
  | noAlternative name => "data did not match any variant of untagged enum " ++ name

end Fault

end ContentSchema.Json
