import ContentSchema.Validator.Basic

/-! # Built-in schemas

The values that every content model shares: assets, images, locations and rich text.
-/

namespace ContentSchema

structure Builtin where
  name : String
  node : Node
  /-- An import that the declared type needs. -/
  typeImport : Option String

namespace Builtin

/-- A record without a say on further keys. -/
def part (entries : List (String × Node)) : Node := .record entries .strip

def text : Node := .plain .string

def number : Node := .plain .number

def size : Node := part [("width", number), ("height", number)]

def file (details : List (String × Node)) : Node :=
  part [("url", text), ("details", part details), ("fileName", text), ("contentType", text)]

def media (name : String) (details : List (String × Node)) : Builtin where
  name := name
  node := (part [
    ("sys", part [("type", .literal "Asset")]),
    ("fields", part [("title", text), ("description", text.wrapped), ("file", file details)])
  ]).withReference name .builtin
  typeImport := none

def asset : Builtin := media "contentfulAsset" [("size", number)]

def image : Builtin := media "contentfulImage" [("size", number), ("image", size)]

def location : Builtin where
  name := "contentfulLocation"
  node := (part [("lat", number), ("lon", number)]).withReference "contentfulLocation" .builtin
  typeImport := none

def richText : Builtin where
  name := "contentfulRichText"
  node := (Node.any.withReference "contentfulRichText" .builtin).withCast "Document"
  typeImport := some "import type \x7b Document \x7d from \"@contentful/rich-text-types\";"

def all : List Builtin := [location, asset, image, richText]

theorem mem_all_iff {b : Builtin} :
    b ∈ all ↔ b = location ∨ b = asset ∨ b = image ∨ b = richText := by
  simp [all]

def lookup (name : String) : Option Builtin := all.find? (·.name == name)

end Builtin

end ContentSchema
