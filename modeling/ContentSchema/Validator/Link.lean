import ContentSchema.Validator.Basic

/-! # Link validators

What the value of an entry link has to be, given the content types that it may lead to.
-/

namespace ContentSchema.Node

/-- A link that leads to an entry of any type. -/
def openLink : Node :=
  .record [("sys", .record
    [("type", .literal "Link"), ("linkType", .literal "Entry"), ("id", .plain .string)]
    .strip)] .strip

/-- The schema of one target: copied from those at hand where there are such, or else by name. -/
def linkTarget (inline : Option (List (String × Node))) (target : String) : Node :=
  match inline with
  | some schemas => (schemas.lookup target).getD openLink
  | none => any.withReference target .contentType

def link (targets : List String) (inline : Option (List (String × Node))) : Node :=
  match targets with
  | [] => openLink
  | [target] => (linkTarget inline target).withLinks ⟨[target], false, false⟩
  | targets =>
    (union (targets.map (linkTarget inline)) .empty).withLinks ⟨targets, false, false⟩

end ContentSchema.Node
