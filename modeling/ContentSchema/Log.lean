import ContentSchema.Generate

/-! # The log

Warnings go to a log as soon as they are met, also on the way to a failure. What the log makes of
them is up to its settings: by default it writes a line for each to the error output.
-/

namespace ContentSchema

open Json

/-- The lines that are written, given the warnings. -/
abbrev Log := List String → List String

def Log.off : Log := fun _ => []

/-- Of an entry that is no node the log does not say what becomes of it. -/
def Warning.logged : Warning → String
  | .notANode id fault => nodeFault id fault
  | warning => warning.message

/-- What is logged after a step that may fail. -/
def logAfter {α : Type} (step : Except Failure α) (log : α → List String) : List String :=
  match step with
  | .ok a => log a
  | .error _ => []

def Graph.storedLog (settings : Settings) (document : Value) : List String :=
  match (document.member? "schemas").getD document with
  | .object entries => (entries.mapM (storedNode settings)).warnings.map (·.logged)
  | _ => []

def generateStoredLog (text : String) (settings : Settings) : List String :=
  logAfter (readModel text) fun model => (model.schemas settings).messages

def generateLog (text : String) (settings : Settings) : List String :=
  logAfter (readModel text) fun model =>
    (model.schemas settings).messages ++
      logAfter (model.graph settings) fun graph => (graph.toModule settings).messages

def renderStoredLog (text : String) (settings : Settings) : List String :=
  match (Document.ofText text).value? with
  | none => []
  | some document =>
    Graph.storedLog settings document ++
      logAfter (Graph.ofStored settings document) fun graph => (graph.toModule settings).messages

end ContentSchema
