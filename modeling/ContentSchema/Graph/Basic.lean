import ContentSchema.Json.Writer
import ContentSchema.Validator.Reader

/-! # Schema graphs

The validators of all content types by id, and the warnings met in making them. A graph is kept as a
JSON document between runs.
-/

namespace ContentSchema

open Json

structure Graph where
  schemas : List (String × Node)
  warnings : List String

namespace Graph

def empty : Graph := ⟨[], []⟩

def put (graph : Graph) (id : String) (node : Node) : Graph :=
  { graph with schemas := Entries.put id node graph.schemas }

def warn (graph : Graph) (messages : List String) : Graph :=
  { graph with warnings := graph.warnings ++ messages }

/-- Warnings are left out where there are none. -/
def toValue (graph : Graph) : Value :=
  .object (("schemas", .object (Node.shapeMembers graph.schemas)) ::
    if graph.warnings.isEmpty then []
    else [("warnings", .list (graph.warnings.map .str))])

def record (room : Nat) : Record Graph where
  name := "SchemaGraph"
  blank := empty
  slots :=
    [.needed "schemas" (Reader.map (room - 1) (Node.read .text (room - 2))) fun g schemas =>
        { g with schemas := schemas },
      .defaulted "warnings" (Reader.list (room - 1) Reader.text) fun g warnings =>
        { g with warnings := warnings }]
  others := .skipped

def read (room : Nat) : Reader Graph := (record room).read .text room

def ofText (text : String) : Except Fault Graph := (Document.ofText text).read (read maxDepth)

end Graph

end ContentSchema
