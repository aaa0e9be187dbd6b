import ContentSchema.Json.Value
import ContentSchema.Validator.Basic

/-! # Writing validators

A node is written as an object of its kind, its parts and then its tags.
-/

namespace ContentSchema

open Json

def Primitive.toValue : Primitive → Value
  | string => .str "string"
  | dateTime => .str "dateTime"
  | number => .str "number"
  | integer => .str "integer"
  | boolean => .str "boolean"
  | literal value => .object [("literal", .str value)]

def Target.name : Target → String
  | builtin => "builtin"
  | contentType => "contentType"

def NamedReference.toValue (r : NamedReference) : Value :=
  .object [("name", .str r.name), ("target", .str r.target.name)]

def LinkSet.toValue (l : LinkSet) : Value :=
  .object [("targets", .list (l.targets.map .str)), ("list", .bool l.list),
    ("optional", .bool l.optional)]

def Tags.members (tags : Tags) : List (String × Value) :=
  Value.optional "reference" (tags.reference.map (·.toValue)) ++
    Value.optional "multiReference" (tags.links.map (·.toValue)) ++
    Value.optional "typeCast" (tags.cast.map .str)

namespace Node

def written (kind : String) (parts : List (String × Value)) (tags : Tags) : Value :=
  .object (("kind", .str kind) :: parts ++ tags.members)

mutual

def toValue : Node → Value
  | primitive p tags => written "primitive" [("primitive", p.toValue)] tags
  | object shape policy tags =>
    written "object" [("shape", .object (shapeMembers shape)), ("policy", .str policy.name)] tags
  | array element tags => written "array" [("element", element.toValue)] tags
  | optional inner tags => written "optional" [("inner", inner.toValue)] tags
  | union branches tags => written "union" [("branches", .list (branchValues branches))] tags
  | unknown tags => written "unknown" [] tags

def shapeMembers : List (String × Node) → List (String × Value)
  | [] => []
  | (key, node) :: rest => (key, node.toValue) :: shapeMembers rest

def branchValues : List Node → List Value
  | [] => []
  | node :: rest => node.toValue :: branchValues rest

end

end Node

end ContentSchema
