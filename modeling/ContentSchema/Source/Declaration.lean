import ContentSchema.Source.Expr

/-! # Declarations

What a generated module declares for a schema: a constant and its type. Where a content type links
to others, a base without the links comes first, and the type and the constant add the links to it.
-/

namespace ContentSchema.Source

/-- A field that links to declared schemas. -/
structure LinkField where
  key : String
  types : List String
  constants : List String
  list : Bool
  optional : Bool
  deriving DecidableEq

inductive Declaration where
  /-- A schema whose type is read off it; the assertion is a type given to it. -/
  | schema (constant type : String) (body : Expr) (assertion : Option String)
  | linked (base constant type : String) (body : Expr) (fields : List LinkField)

namespace LinkField

/-- `A | B`, as a list `(A | B)[]`. -/
def typeText (f : LinkField) : String :=
  let choice := String.intercalate " | " f.types
  let listed :=
    if f.list then (if 1 < f.types.length then "(" ++ choice ++ ")" else choice) ++ "[]" else choice
  if f.optional then listed ++ " | undefined" else listed

def typeMember (f : LinkField) : String :=
  Text.propertyName f.key ++ (if f.optional then "?" else "") ++ ": " ++ f.typeText

def expr (f : LinkField) : Expr :=
  let link := Expr.deferred f.constants
  let listed := if f.list then .array link else link
  if f.optional then .optional listed else listed

def schemaMember (f : LinkField) : String :=
  Text.indent 2 ++ Text.propertyName f.key ++ ": " ++ f.expr.render 2 ++ ","

end LinkField

namespace Declaration

def lineWidth : Nat := 80

/-- The type of the fields on one line, or on a line each where one is too long. -/
def fieldsType (members : List String) : String :=
  let line := "  fields: \x7b " ++ String.intercalate "; " members ++ " \x7d;"
  if line.utf8ByteSize ≤ lineWidth then line
  else
    "  fields: \x7b\n" ++ String.intercalate "\n" (members.map fun m => "    " ++ m ++ ";") ++
      "\n  \x7d;"

def inferred (constant : String) : String := "z.infer<typeof " ++ constant ++ ">"

def render : Declaration → String
  | schema constant type body assertion =>
    "export const " ++ constant ++ " = " ++ body.render 0 ++
      (assertion.map fun t => " as z.ZodType<" ++ t ++ ">").getD "" ++ ";\n\n" ++
      "export type " ++ type ++ " = " ++ inferred constant ++ ";"
  | linked base constant type body fields =>
    "const " ++ base ++ " = " ++ body.render 0 ++ ";\n\n" ++
      "export type " ++ type ++ " = " ++ inferred base ++ " & \x7b\n" ++
      fieldsType (fields.map (·.typeMember)) ++ "\n\x7d;\n\n" ++
      "export const " ++ constant ++ ": z.ZodType<" ++ type ++ "> = " ++ base ++ ".extend(\x7b\n" ++
      "  fields: " ++ base ++ ".shape.fields.extend(\x7b\n" ++
      String.intercalate "\n" (fields.map (·.schemaMember)) ++ "\n  \x7d),\n\x7d);"

end Declaration

structure Module where
  imports : List String
  builtins : List Declaration
  contentTypes : List Declaration

namespace Module

def header : String :=
  "// Generated by contentful-zod from a Contentful content model.\n" ++
    "// WARNING: This file is generated. Do not edit manually."

/-- Parts of the text, with an empty line between any two. -/
def paragraphs (parts : List String) : String := String.intercalate "\n\n" parts

def render (m : Module) : String :=
  let sections := [header ++ "\n\n" ++ String.intercalate "\n" m.imports,
    paragraphs (m.builtins.map (·.render)), paragraphs (m.contentTypes.map (·.render))]
  paragraphs (sections.filter (!·.isEmpty)) ++ "\n"

end Module

end ContentSchema.Source
