import ContentSchema.Json.Writer
import ContentSchema.Text.Identifier
import ContentSchema.Validator.Basic

/-! # Schema expressions

The expressions of a generated module, and their text. Only objects take more than one line.
-/

namespace ContentSchema.Source

inductive Expr where
  | primitive (p : Primitive)
  | object (members : List (String × Expr)) (policy : ObjectPolicy)
  | array (element : Expr)
  | optional (inner : Expr)
  | union (branches : List Expr)
  | unknown
  /-- A declared schema. -/
  | constant (name : String)
  /-- One of several declared schemas, looked up only when a value is checked. -/
  | deferred (names : List String)
  | cast (body : Expr) (type : String)

namespace Expr

def primitiveText : Primitive → String
  | .string => "z.string()"
  | .dateTime => "z.string().datetime()"
  | .number => "z.number()"
  | .integer => "z.number().int()"
  | .boolean => "z.boolean()"
  | .literal value => "z.literal(" ++ Json.quote value ++ ")"

def policyText : ObjectPolicy → String
  | .strict => ".strict()"
  | .passthrough => ".passthrough()"
  | .strip => ""

def unionText (branches : List String) : String :=
  "z.union([" ++ String.intercalate ", " branches ++ "])"

/-- An object of these lines, the braces standing at `level`. -/
def objectText (level : Nat) (lines : List String) : String :=
  if lines.isEmpty then "z.object(\x7b\x7d)"
  else
    "z.object(\x7b\n" ++ String.intercalate "\n" lines ++ "\n" ++ Text.indent level ++ "\x7d)"

def deferredText : List String → String
  | [name] => "z.lazy(() => " ++ name ++ ")"
  | names => "z.lazy(() => " ++ unionText names ++ ")"

mutual

def render (level : Nat) : Expr → String
  | primitive p => primitiveText p
  | object members policy =>
    objectText level (renderMembers (level + 1) members) ++ policyText policy
  | array element => "z.array(" ++ element.render level ++ ")"
  | optional inner => inner.render level ++ ".optional()"
  | union branches => unionText (renderBranches level branches)
  | unknown => "z.unknown()"
  | constant name => name
  | deferred names => deferredText names
  | cast body type => "(" ++ body.render level ++ " as z.ZodType<" ++ type ++ ">)"

def renderMembers (level : Nat) : List (String × Expr) → List String
  | [] => []
  | (key, e) :: rest =>
    (Text.indent level ++ Text.propertyName key ++ ": " ++ e.render level ++ ",") ::
      renderMembers level rest

def renderBranches (level : Nat) : List Expr → List String
  | [] => []
  | e :: rest => e.render level :: renderBranches level rest

end

end Expr

end ContentSchema.Source
