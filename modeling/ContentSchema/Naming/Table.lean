import ContentSchema.Naming.Basic
import ContentSchema.Validator.Basic

/-! # Name tables

The declared names of all schemas of one module. Each is unlike those before it: where the name that
the rules make is taken, the first number that sets it apart is added.
-/

namespace ContentSchema

structure NamedSchema where
  target : Target
  id : String
  schema : String
  type : String
  deriving DecidableEq

structure NameTable where
  schemas : List NamedSchema
  deriving DecidableEq

namespace NameTable

def empty : NameTable := ⟨[]⟩

def find? (table : NameTable) (target : Target) (id : String) : Option NamedSchema :=
  table.schemas.find? fun s => s.target == target && s.id == id

/-- The base, or the base with the least number from 2 on that is not among `used`. -/
def unusedName (base : String) (used : List String) : String :=
  if used.contains base then
    let candidates := (List.range' 2 used.length).map fun n => base ++ toString n
    (candidates.find? (!used.contains ·)).getD (base ++ toString (used.length + 2))
  else base

def register (table : NameTable) (naming : Naming) (target : Target) (id : String) : NameTable :=
  if (table.find? target id).isSome then table
  else
    let schema := unusedName (naming.schemaName id) (table.schemas.map (·.schema))
    let type := unusedName (naming.typeName id) (table.schemas.map (·.type))
    ⟨table.schemas ++ [⟨target, id, schema, type⟩]⟩

end NameTable

end ContentSchema
