import ContentSchema.Graph.Basic
import ContentSchema.Naming.Table
import ContentSchema.Report
import ContentSchema.Source.Declaration
import ContentSchema.Validator.Builtin

/-! # The module of a graph

Linked, a reference is the name of a declared schema, and content types are looked up late so that
they may refer to each other in a circle. Flat, a reference is the schema itself, and a circle is a
failure.
-/

namespace ContentSchema

open Source

/-- What stands for a reference; without it the node's own body does. -/
abbrev Follow := NamedReference → Option (Report Expr)

namespace Node

/-- The body of a node unless something stands for its reference. -/
def tagged (follow : Follow) (tags : Tags) (body : Unit → Report Expr) : Report Expr :=
  match tags.reference.bind follow with
  | some referred => referred
  | none => do
    let e ← body ()
    return match tags.cast with
      | some type => .cast e type
      | none => e

mutual

def expr (follow : Follow) : Node → Report Expr
  | primitive p tags => tagged follow tags fun _ => return .primitive p
  | object shape policy tags => tagged follow tags fun _ => do
    return .object (← shapeExprs follow shape) policy
  | array element tags => tagged follow tags fun _ => do return .array (← element.expr follow)
  | optional inner tags => tagged follow tags fun _ => do return .optional (← inner.expr follow)
  | union branches tags => tagged follow tags fun _ =>
    if branches.length < 2 then Report.fail (.malformedUnion branches.length)
    else do return .union (← branchExprs follow branches)
  | unknown tags => tagged follow tags fun _ => return .unknown

def shapeExprs (follow : Follow) : List (String × Node) → Report (List (String × Expr))
  | [] => return []
  | (key, node) :: rest => do
    let e ← node.expr follow
    return (key, e) :: (← shapeExprs follow rest)

def branchExprs (follow : Follow) : List Node → Report (List Expr)
  | [] => return []
  | node :: rest => do
    let e ← node.expr follow
    return e :: (← branchExprs follow rest)

end

def stopAtBuiltin (tags : Tags) (inner : List String) : List String :=
  match tags.reference with
  | some ⟨name, .builtin⟩ => [name]
  | _ => inner

mutual

/-- The built-ins that the node refers to, looking into no built-in. -/
def builtinNames (node : Node) : List String :=
  match node with
  | object shape _ tags => stopAtBuiltin tags (shapeBuiltins shape)
  | array element tags => stopAtBuiltin tags element.builtinNames
  | optional inner tags => stopAtBuiltin tags inner.builtinNames
  | union branches tags => stopAtBuiltin tags (branchBuiltins branches)
  | primitive _ tags => stopAtBuiltin tags []
  | unknown tags => stopAtBuiltin tags []

def shapeBuiltins : List (String × Node) → List String
  | [] => []
  | (_, node) :: rest => node.builtinNames ++ shapeBuiltins rest

def branchBuiltins : List Node → List String
  | [] => []
  | node :: rest => node.builtinNames ++ branchBuiltins rest

end

/-- The entries of an object's fields that have a link set. -/
def linkedFields (node : Node) : List (String × LinkSet) :=
  match (node.shape?.bind (·.lookup "fields")).bind shape? with
  | some fields => fields.filterMap fun (key, field) => field.tags.links.map (key, ·)
  | none => []

/-- A field without its links. -/
def placeholder (field : Node) : Node := if field.tags.links.isSome then any else field

def withPlaceholders : Node → Node
  | object shape policy tags =>
    let hide : String × Node → String × Node
      | ("fields", object fields policy tags) =>
        ("fields", object (fields.map fun (key, field) => (key, placeholder field)) policy tags)
      | entry => entry
    object (shape.map hide) policy tags
  | node => node

end Node

namespace Graph

def builtinNames (graph : Graph) : List String := (Node.shapeBuiltins graph.schemas).eraseDups

def nameTable (graph : Graph) (naming : Naming) : NameTable :=
  let builtins := graph.builtinNames.foldl (·.register naming .builtin ·) .empty
  (Entries.keys graph.schemas).foldl (·.register naming .contentType ·) builtins

end Graph

structure Outline where
  settings : Settings
  names : NameTable
  schemas : List (String × Node)

namespace Outline

def constant (o : Outline) (target : Target) (id : String) : String :=
  ((o.names.find? target id).map (·.schema)).getD (o.settings.naming.schemaName id)

def type (o : Outline) (target : Target) (id : String) : String :=
  ((o.names.find? target id).map (·.type)).getD (o.settings.naming.typeName id)

def dangling (name : String) : Report Expr := do
  Report.warn (.danglingReference name)
  return .unknown

/-- Every reference is a name. -/
def byName (o : Outline) : Follow
  | ⟨name, .builtin⟩ => some (
    if (Builtin.lookup name).isSome then return .constant (o.constant .builtin name)
    else Report.fail (.missingBuiltin name))
  | ⟨name, .contentType⟩ => some (
    if (o.schemas.lookup name).isSome then return .deferred [o.constant .contentType name]
    else dangling name)

/-- Every reference is the schema itself: `around` are the schemas being written, `left` the
others. -/
def inlined (o : Outline) (around : List String) (left : List (String × Node)) : Follow
  | ⟨_, .builtin⟩ => none
  | ⟨name, .contentType⟩ => some (
    match _ : left.lookup name with
    | some node => node.expr fun r => inlined o (around ++ [name]) (Entries.remove name left) r
    | none =>
      if (o.schemas.lookup name).isSome then Report.fail (.inliningCycle name around)
      else dangling name)
termination_by left.length
decreasing_by exact Entries.length_remove_lt ‹_›

def follow (o : Outline) (id : String) : Follow :=
  if o.settings.flat then o.inlined [id] (Entries.remove id o.schemas) else o.byName

def builtin (o : Outline) (builtin : Builtin) : Report Declaration := do
  let body ← (builtin.node.withTags .empty).expr o.byName
  return .schema (o.constant .builtin builtin.name) (o.type .builtin builtin.name) body
    builtin.node.tags.cast

def linkField (o : Outline) (key : String) (links : LinkSet) : Report LinkField :=
  if links.targets.isEmpty then Report.fail (.malformedUnion 0)
  else return {
    key := key
    types := links.targets.map (o.type .contentType)
    constants := links.targets.map (o.constant .contentType)
    list := links.list
    optional := links.optional }

def contentType (o : Outline) (id : String) (node : Node) : Report Declaration := do
  let constant := o.constant .contentType id
  let type := o.type .contentType id
  let links := if o.settings.flat then [] else node.linkedFields
  if links.isEmpty then
    return .schema constant type (← node.expr (o.follow id)) none
  else
    let body ← node.withPlaceholders.expr (o.follow id)
    let fields ← links.mapM fun (key, links) => o.linkField key links
    return .linked ("_base" ++ type) constant type body fields

end Outline

namespace Graph

def zodImport : String := "import \x7b z \x7d from \"zod\";"

def builtins (names : List String) : Except Failure (List Builtin) :=
  names.mapM fun name =>
    match Builtin.lookup name with
    | some builtin => .ok builtin
    | none => .error (.missingBuiltin name)

/-- Flat modules declare no built-ins, but import the types that these need. -/
def toModule (graph : Graph) (settings : Settings) : Report Module :=
  match builtins graph.builtinNames with
  | .error failure => Report.fail failure
  | .ok builtins => do
    let outline : Outline := ⟨settings, graph.nameTable settings.naming, graph.schemas⟩
    let declared ← if settings.flat then pure [] else builtins.mapM outline.builtin
    let contentTypes ← graph.schemas.mapM fun (id, node) => outline.contentType id node
    return {
      imports := (zodImport :: builtins.filterMap (·.typeImport)).eraseDups
      builtins := declared
      contentTypes := contentTypes }

end Graph

end ContentSchema
