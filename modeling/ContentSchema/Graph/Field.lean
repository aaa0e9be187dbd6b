import ContentSchema.Model.Links
import ContentSchema.Report
import ContentSchema.Validator.Builtin
import ContentSchema.Validator.Link

/-! # Validators of fields

A field is mapped by its kind. What has no validator of its own is left to the policy for unknown
kinds, and targets of links that the model lacks are dropped with a warning.
-/

namespace ContentSchema

/-- What the mapping of a field looks at besides the field. -/
structure Scope where
  settings : Settings
  /-- The content types of the model. -/
  known : List String
  /-- The schemas made so far, which flat mode copies. -/
  produced : List (String × Node)
  contentType : String

namespace Scope

def unsupported (scope : Scope) (field kind : String) : Report Node :=
  match scope.settings.unknown with
  | .fail => Report.fail (.unsupportedKind scope.contentType field kind)
  | .warn => do
    Report.warn (.unsupportedKind scope.contentType field kind)
    return .any
  | .ignore => return .any

def entryLink (scope : Scope) (field : String) (targets : List String) : Report Node :=
  let (known, unknown) := targets.partition scope.known.contains
  { warnings := unknown.map (.unknownTarget scope.contentType field)
    outcome := .ok (Node.link known (if scope.settings.flat then some scope.produced else none)) }

/-- The validator of what `d` describes, lists apart. -/
def mapSingle (scope : Scope) (field : String) (d : Descriptor) (items : List Descriptor) :
    Report Node :=
  match d.kind with
  | "Symbol" => return .plain .string
  | "Text" => return .plain .string
  | "Integer" => return .plain .integer
  | "Number" => return .plain .number
  | "Boolean" => return .plain .boolean
  | "Date" => return .plain .dateTime
  | "RichText" => return Builtin.richText.node
  | "Location" => return Builtin.location.node
  | "Link" =>
    match d.linkType with
    | some "Asset" => return (if d.isImageOnly then Builtin.image else Builtin.asset).node
    | some "Entry" => scope.entryLink field (d.linkTargets items)
    | some other => scope.unsupported field ("Link<" ++ other ++ ">")
    | none => scope.unsupported field "Link"
  | kind => scope.unsupported field kind

/-- The validator of what `d` describes, with the descriptors of its items. The targets of a list of
entry links may stand at the list or at its items. -/
def mapKind (scope : Scope) (field : String) (d : Descriptor) : List Descriptor → Report Node
  | [] => scope.mapSingle field d []
  | item :: inner =>
    if d.kind = "Array" then do
      let element ←
        if d.isEntryLink (item :: inner) then
          scope.entryLink field (d.linkTargets (item :: inner))
        else mapKind scope (field ++ "Item") item inner
      return element.listed
    else scope.mapSingle field d (item :: inner)

/-- A field that is not required may be absent. -/
def mapField (scope : Scope) (field : Field) : Report Node := do
  let node ← scope.mapKind field.id field.holds field.items
  return if field.required then node else node.wrapped

/-- What tells the entries of one content type from those of the others. -/
def discriminant (id : String) : Node :=
  let within (key : String) (node : Node) : Node := .record [(key, node)] .strip
  within "contentType" (within "sys" (within "id" (.literal id)))

def mapEntry (scope : Scope) (field : Field) : Report (String × Node) := do
  return (field.id, ← scope.mapField field)

def mapContentType (scope : Scope) (ct : ContentType) : Report Node := do
  let fields ← ct.fields.mapM scope.mapEntry
  let policy := scope.settings.objectPolicy
  return .record [("sys", discriminant ct.id), ("fields", .record fields policy)] policy

end Scope

end ContentSchema
