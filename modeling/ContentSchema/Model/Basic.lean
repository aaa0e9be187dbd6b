/-! # Content models

A content model lists content types, and a content type its fields. Of the constraints on a field
only those on links are kept.
-/

namespace ContentSchema

/-- A constraint that is written as one text or as a list of texts. -/
inductive OneOrMany where
  | one (value : String)
  | many (values : List String)
  deriving DecidableEq

def OneOrMany.values : OneOrMany → List String
  | one value => [value]
  | many values => values

structure Validation where
  linkContentType : Option OneOrMany
  linkMimetypeGroup : Option OneOrMany
  deriving DecidableEq

/-- What a field, or an item of a list field, holds. -/
structure Descriptor where
  kind : String
  linkType : Option String
  validations : List Validation
  deriving DecidableEq

structure Field where
  id : String
  name : String
  holds : Descriptor
  /-- The items of a list, then the items of its items, and so on. -/
  items : List Descriptor
  required : Bool
  localized : Bool
  deriving DecidableEq

structure ContentType where
  id : String
  name : String
  description : Option String
  displayField : Option String
  fields : List Field
  deriving DecidableEq

structure ContentModel where
  contentTypes : List ContentType
  deriving DecidableEq

def ContentModel.contentType? (model : ContentModel) (id : String) : Option ContentType :=
  model.contentTypes.find? (·.id == id)

end ContentSchema
