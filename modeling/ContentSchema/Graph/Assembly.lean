import ContentSchema.Graph.Basic
import ContentSchema.Graph.Field
import ContentSchema.Graph.Order

/-! # Assembly

The schema graph of a content model. Linked schemas stand in the order of the model; flat ones in
dependency order, so that each can copy those that it links to.
-/

namespace ContentSchema

namespace ContentModel

def ids (model : ContentModel) : List String := model.contentTypes.map (·.id)

/-- The first id that has been used before. -/
def repeatedId? (seen : List String) : List String → Option String
  | [] => none
  | id :: rest => if seen.contains id then some id else repeatedId? (id :: seen) rest

def sequence (model : ContentModel) (settings : Settings) : Except Failure (List ContentType) :=
  if settings.flat then
    match ContentType.order model.contentTypes with
    | .ok types => .ok types
    | .error circle => .error (.dependencyCycle circle.first.id (circle.later.map (·.id)))
  else .ok model.contentTypes

def addSchema (model : ContentModel) (settings : Settings) (schemas : List (String × Node))
    (ct : ContentType) : Report (List (String × Node)) := do
  let scope : Scope := ⟨settings, model.ids, schemas, ct.id⟩
  let node ← scope.mapContentType ct
  return Entries.put ct.id node schemas

def schemas (model : ContentModel) (settings : Settings) : Report (List (String × Node)) :=
  match repeatedId? [] model.ids with
  | some id => Report.fail (.repeatedId id)
  | none =>
    match model.sequence settings with
    | .error failure => Report.fail failure
    | .ok types => types.foldlM (model.addSchema settings) []

def graph (model : ContentModel) (settings : Settings) : Except Failure Graph :=
  let report := model.schemas settings
  report.outcome.map fun schemas => ⟨schemas, report.messages⟩

end ContentModel

end ContentSchema
