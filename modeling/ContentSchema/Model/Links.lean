import ContentSchema.Model.Basic

/-! # Links

Which content types a field may link to, and which a content type depends on.
-/

namespace ContentSchema

namespace Descriptor

def linksTo (d : Descriptor) (linkType : String) : Bool :=
  d.kind == "Link" && d.linkType == some linkType

/-- Whether a descriptor with these items is a link to an entry or a list of such links. -/
def isEntryLink (d : Descriptor) (items : List Descriptor) : Bool :=
  d.linksTo "Entry" || d.kind == "Array" && items.head?.any (·.linksTo "Entry")

def constraints (d : Descriptor) (read : Validation → Option OneOrMany) : List String :=
  d.validations.flatMap fun v => ((read v).map (·.values)).getD []

/-- The content types that an entry link may lead to, each where it is first named. -/
def linkTargets (d : Descriptor) (items : List Descriptor) : List String :=
  if d.isEntryLink items then
    ((d :: items.head?.toList).flatMap (·.constraints Validation.linkContentType)).eraseDups
  else []

/-- Whether the constraints on the media type name images and nothing else. -/
def isImageOnly (d : Descriptor) : Bool :=
  let groups := d.constraints Validation.linkMimetypeGroup
  !groups.isEmpty && groups.all (· == "image")

end Descriptor

def Field.isEntryLink (f : Field) : Bool := f.holds.isEntryLink f.items

def Field.linkTargets (f : Field) : List String := f.holds.linkTargets f.items

def ContentType.dependencies (ct : ContentType) : List String :=
  (ct.fields.flatMap (·.linkTargets)).eraseDups

end ContentSchema
