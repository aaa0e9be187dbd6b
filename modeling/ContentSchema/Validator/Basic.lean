import ContentSchema.Entries
import ContentSchema.Options.Basic

/-! # Validators

A validator node says which values it lets pass. Its tags say what it stands for: a schema known by
name, a set of linked content types, a type that it is cast to.
-/

namespace ContentSchema

inductive Primitive where
  | string
  /-- A text that holds a date and a time. -/
  | dateTime
  | number
  | integer
  | boolean
  | literal (value : String)
  deriving DecidableEq

/-- Where a schema that is referred to by name is found. -/
inductive Target where
  | builtin
  | contentType
  deriving DecidableEq

structure NamedReference where
  name : String
  target : Target
  deriving DecidableEq

/-- The content types that the value of a field links to. -/
structure LinkSet where
  targets : List String
  list : Bool
  optional : Bool
  deriving DecidableEq

structure Tags where
  reference : Option NamedReference
  links : Option LinkSet
  cast : Option String
  deriving DecidableEq

def Tags.empty : Tags := ⟨none, none, none⟩

inductive Node where
  | primitive (primitive : Primitive) (tags : Tags)
  | object (shape : List (String × Node)) (policy : ObjectPolicy) (tags : Tags)
  | array (element : Node) (tags : Tags)
  | optional (inner : Node) (tags : Tags)
  | union (branches : List Node) (tags : Tags)
  | unknown (tags : Tags)

namespace Node

def tags : Node → Tags
  | primitive _ tags => tags
  | object _ _ tags => tags
  | array _ tags => tags
  | optional _ tags => tags
  | union _ tags => tags
  | unknown tags => tags

def withTags (tags : Tags) : Node → Node
  | primitive p _ => primitive p tags
  | object shape policy _ => object shape policy tags
  | array element _ => array element tags
  | optional inner _ => optional inner tags
  | union branches _ => union branches tags
  | unknown _ => unknown tags

def kindName : Node → String
  | primitive .. => "primitive"
  | object .. => "object"
  | array .. => "array"
  | optional .. => "optional"
  | union .. => "union"
  | unknown .. => "unknown"

/-! Nodes without tags. -/

def plain (p : Primitive) : Node := primitive p .empty

def literal (value : String) : Node := plain (.literal value)

def record (entries : List (String × Node)) (policy : ObjectPolicy) : Node :=
  object (Entries.ofList entries) policy .empty

def any : Node := unknown .empty

/-! Nodes with a tag more. -/

def withReference (node : Node) (name : String) (target : Target) : Node :=
  node.withTags { node.tags with reference := some ⟨name, target⟩ }

def withLinks (node : Node) (links : LinkSet) : Node :=
  node.withTags { node.tags with links := some links }

def withCast (node : Node) (type : String) : Node :=
  node.withTags { node.tags with cast := some type }

/-- The node with its link set taken off, and the link set as `f` changes it. -/
def takeLinks (node : Node) (f : LinkSet → LinkSet) : Node × Option LinkSet :=
  (node.withTags { node.tags with links := none }, node.tags.links.map f)

/-- An array of this element; a link set moves to the array, as one of a list. -/
def listed (element : Node) : Node :=
  let (element, links) := element.takeLinks ({ · with list := true })
  array element { Tags.empty with links := links }

/-- A node that may be absent; a link set moves to the wrapper, as an optional one. -/
def wrapped (node : Node) : Node :=
  let (inner, links) := node.takeLinks ({ · with optional := true })
  optional inner { Tags.empty with links := links }

def isOptional : Node → Bool
  | optional .. => true
  | _ => false

def shape? : Node → Option (List (String × Node))
  | object shape _ _ => some shape
  | _ => none

mutual

/-- The node and all nodes in it, each before those in it. -/
def walk : Node → List Node
  | node@(object shape _ _) => node :: walkShape shape
  | node@(array element _) => node :: element.walk
  | node@(optional inner _) => node :: inner.walk
  | node@(union branches _) => node :: walkBranches branches
  | node => [node]

def walkShape : List (String × Node) → List Node
  | [] => []
  | (_, node) :: rest => node.walk ++ walkShape rest

def walkBranches : List Node → List Node
  | [] => []
  | node :: rest => node.walk ++ walkBranches rest

end

/-- The content types that the node refers to, each where it is first named. -/
def contentTypeReferences (node : Node) : List String :=
  (node.walk.filterMap fun n => n.tags.reference.bind fun r =>
    if r.target = .contentType then some r.name else none).eraseDups

end Node

end ContentSchema
