import ContentSchema.Graph.Assembly
import ContentSchema.Model.Reader
import ContentSchema.Source.OfGraph

/-! # Generation

From the text of a content model to a generated module, at once or by way of a stored graph.
-/

namespace ContentSchema

open Json

/-- A generated text and the warnings of the whole run. -/
structure Generated where
  source : String
  warnings : List String
  deriving DecidableEq

namespace Graph

def print (graph : Graph) (settings : Settings) : Except Failure Generated :=
  let report := graph.toModule settings
  report.outcome.map fun m => ⟨m.render, graph.warnings ++ report.messages⟩

def store (graph : Graph) : Generated := ⟨graph.toValue.pretty, graph.warnings⟩

/-- A node of a stored graph. What is none passes everything, as far as the policy allows. -/
def storedNode (settings : Settings) (entry : String × Value) : Report (String × Node) :=
  match Node.ofValue entry.2 with
  | .ok node => return (entry.1, node)
  | .error fault =>
    match settings.unknown with
    | .fail => Report.fail (.notANode entry.1 fault)
    | .warn => do
      Report.warn (.notANode entry.1 fault)
      return (entry.1, .any)
    | .ignore => return (entry.1, .any)

/-- Reads a stored graph, or the object of its schemas alone. -/
def ofStored (settings : Settings) (document : Value) : Except Failure Graph :=
  match (document.member? "schemas").getD document with
  | .object entries =>
    let report := entries.mapM (storedNode settings)
    let earlier :=
      match document.member? "warnings" with
      | some (.list warnings) => warnings.filterMap Value.text?
      | _ => []
    report.outcome.map fun nodes => ⟨Entries.ofList nodes, earlier ++ report.messages⟩
  | _ => .error .notSchemas

end Graph

def readModel (text : String) : Except Failure ContentModel :=
  (ContentModel.ofText text).mapError .invalidModel

def generate (text : String) (settings : Settings) : Except Failure Generated := do
  let model ← readModel text
  let graph ← model.graph settings
  graph.print settings

def generateStored (text : String) (settings : Settings) : Except Failure Generated := do
  let model ← readModel text
  let graph ← model.graph settings
  return graph.store

def renderStored (text : String) (settings : Settings) : Except Failure Generated := do
  match (Document.ofText text).value? with
  | none => throw (.invalidDocument .grammar)
  | some document =>
    let graph ← Graph.ofStored settings document
    graph.print settings

end ContentSchema
