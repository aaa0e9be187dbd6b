import ContentSchema.Json.Value
import ContentSchema.Model.Basic

/-! # Writing content models

The exported form of a content model, with defaults written out and absent options left out.
-/

namespace ContentSchema

open Json

def OneOrMany.toValue : OneOrMany → Value
  | one value => .str value
  | many values => .list (values.map .str)

def Validation.toValue (v : Validation) : Value :=
  .object (Value.optional "linkContentType" (v.linkContentType.map (·.toValue)) ++
    Value.optional "linkMimetypeGroup" (v.linkMimetypeGroup.map (·.toValue)))

namespace Descriptor

def kindMembers (d : Descriptor) : List (String × Value) :=
  ("type", .str d.kind) :: Value.optional "linkType" (d.linkType.map .str)

def validationsMember (d : Descriptor) : String × Value :=
  ("validations", .list (d.validations.map (·.toValue)))

/-- The form of a chain of items, outermost first. -/
def chainValue? : List Descriptor → Option Value
  | [] => none
  | d :: inner =>
    some (.object (d.kindMembers ++ Value.optional "items" (chainValue? inner) ++
      [d.validationsMember]))

end Descriptor

def Field.toValue (f : Field) : Value :=
  .object ([("id", .str f.id), ("name", .str f.name)] ++ f.holds.kindMembers ++
    Value.optional "items" (Descriptor.chainValue? f.items) ++
    [f.holds.validationsMember, ("required", .bool f.required), ("localized", .bool f.localized)])

def ContentType.toValue (ct : ContentType) : Value :=
  .object ([("sys", .object [("id", .str ct.id)]), ("name", .str ct.name)] ++
    Value.optional "description" (ct.description.map .str) ++
    Value.optional "displayField" (ct.displayField.map .str) ++
    [("fields", .list (ct.fields.map (·.toValue)))])

def ContentModel.toValue (model : ContentModel) : Value :=
  .object [("contentTypes", .list (model.contentTypes.map (·.toValue)))]

end ContentSchema
