import ContentSchema.Json.Reader
import ContentSchema.Validator.Writer

/-! # Reading validators

The tags of a node are read in passing; its other members are set aside until the kind is known, and
then read as the parts of that kind.
-/

namespace ContentSchema

open Json

def Primitive.read (room : Nat) : Reader Primitive :=
  Variant.read .setAside room
    [("string", .plain .string), ("dateTime", .plain .dateTime), ("number", .plain .number),
      ("integer", .plain .integer), ("boolean", .plain .boolean),
      ("literal", .holding fun t => literal <$> Reader.text t)]

def ObjectPolicy.read (room : Nat) : Reader ObjectPolicy :=
  Variant.read .setAside room
    [("strict", .plain .strict), ("passthrough", .plain .passthrough), ("strip", .plain .strip)]

def Target.read (origin : Origin) (room : Nat) : Reader Target :=
  Variant.read origin room [("builtin", .plain .builtin), ("contentType", .plain .contentType)]

def NamedReference.record (origin : Origin) (room : Nat) : Record NamedReference where
  name := "NamedReference"
  blank := ⟨"", .builtin⟩
  slots :=
    [.needed "name" Reader.text fun r s => { r with name := s },
      .needed "target" (Target.read origin (room - 1)) fun r t => { r with target := t }]
  others := .skipped

def LinkSet.record (room : Nat) : Record LinkSet where
  name := "MultiReference"
  blank := ⟨[], false, false⟩
  slots :=
    [.needed "targets" (Reader.list (room - 1) Reader.text) fun l ids => { l with targets := ids },
      .needed "list" Reader.bool fun l b => { l with list := b },
      .needed "optional" Reader.bool fun l b => { l with optional := b }]
  others := .skipped

def Tags.record (origin : Origin) (room : Nat) : Record Tags where
  name := "ValidatorNode"
  blank := .empty
  slots :=
    let reference := (NamedReference.record origin (room - 1)).read origin (room - 1)
    let links := (LinkSet.record (room - 1)).read origin (room - 1)
    [.defaulted "reference" (Reader.optional reference) fun tags r => { tags with reference := r },
      .defaulted "multiReference" (Reader.optional links) fun tags l => { tags with links := l },
      .defaulted "typeCast" (Reader.optional Reader.text) fun tags c => { tags with cast := c }]
  others := .kept (room - 1)

namespace Node

inductive Kind where
  | primitive
  | object
  | array
  | optional
  | union
  | unknown
  deriving DecidableEq

namespace Kind

def variants : List (String × Kind) :=
  [("primitive", primitive), ("object", object), ("array", array), ("optional", optional),
    ("union", union), ("unknown", unknown)]

/-- A kind is given by its name or by its place among the kinds. -/
def read : Reader Kind
  | .str (some name) =>
    match variants.lookup name with
    | some kind => .ok kind
    | none => .error (.strangeVariant name (Entries.keys variants))
  | .num (some (.whole (.ofNat i))) =>
    match variants[i]? with
    | some (_, kind) => .ok kind
    | none => .error (.value (.num (.whole i)) (.variantIndex variants.length))
  | t => .error (t.fault .variantName)

end Kind

/-- The parts of a node of one kind, read from members that were set aside. -/
def parts {α : Type} (blank : α) (slots : List (Slot α)) (members : List (Tree × Tree)) :
    Except Fault α :=
  Record.readMembers ⟨"NodeKind", blank, slots, .skipped⟩ [] blank members

def kind (members : List (Tree × Tree)) : Except Fault Kind :=
  parts .unknown [.needed "kind" Kind.read fun _ kind => kind] members

/-- Reads the parts by kind, where `inner` reads a node in this one. -/
def readParts (room : Nat) (inner : Reader Node) (members : List (Tree × Tree)) (tags : Tags) :
    Kind → Except Fault Node
  | .primitive => do
    let p ← parts .string [.needed "primitive" (Primitive.read (room - 1)) fun _ p => p] members
    return primitive p tags
  | .object => do
    let (shape, policy) ← parts ([], .strip)
      [.needed "shape" (Reader.map (room - 1) inner) fun (_, policy) shape => (shape, policy),
        .needed "policy" (ObjectPolicy.read (room - 1)) fun (shape, _) policy => (shape, policy)]
      members
    return object shape policy tags
  | .array => do
    let element ← parts any [.needed "element" inner fun _ node => node] members
    return array element tags
  | .optional => do
    let node ← parts any [.needed "inner" inner fun _ node => node] members
    return optional node tags
  | .union => do
    let branches ← parts []
      [.needed "branches" (Reader.list (room - 1) inner) fun _ nodes => nodes] members
    return union branches tags
  | .unknown => return unknown tags

/-- A node is always an object; its inner nodes have been set aside. -/
def read (origin : Origin) : Nat → Reader Node
  | 0, .object _ => .error .grammar
  | room + 1, .object members => do
    let tags ← (Tags.record origin (room + 1)).readMembers [] .empty members
    let kind ← kind members
    readParts (room + 1) (read .setAside room) members tags kind
  | _, t => .error (t.fault (.record "ValidatorNode"))

def ofText (text : String) : Except Fault Node :=
  (Document.ofText text).read (read .text maxDepth)

def ofValue (value : Value) : Except Fault Node :=
  let tree := Tree.ofValue value
  read .stored tree.depth tree

end Node

end ContentSchema
