import ContentSchema.Text.CharClass
import ContentSchema.Text.Identifier
import ContentSchema.Text.LetterCase
import ContentSchema.Text.Runs

/-! # Naming rules

The name of a content type's schema constant and of its type, both made from its id.
-/

namespace ContentSchema

structure Naming where
  schemaSuffix : String
  typePrefix : String
  typeSuffix : String
  /-- Words in lower case that type names write in capitals. -/
  abbreviations : List String
  deriving DecidableEq

namespace Naming

def standard : Naming where
  schemaSuffix := "Schema"
  typePrefix := ""
  typeSuffix := ""
  abbreviations := ["seo", "cta", "url", "id"]

/-- Puts a blank between a small letter and a capital. -/
def spread : List Char → List Char
  | a :: b :: rest =>
    if a.isLower && b.isUpper then a :: ' ' :: spread (b :: rest) else a :: spread (b :: rest)
  | short => short

def separatesWords (c : Char) : Bool := c == '-' || c == '_' || Text.CharClass.blank.contains c

def words (text : String) : List (List Char) :=
  Text.runs (fun c => !separatesWords c) (spread text.toList)

def capitalized (naming : Naming) (word : List Char) : List Char :=
  let small := Text.lowercase word
  if naming.abbreviations.contains (String.ofList small) then small.flatMap Text.capitals
  else match small with
    | [] => []
    | c :: rest => Text.capitals c ++ rest

def pascalCase (naming : Naming) (text : String) : String :=
  String.ofList (((words text).flatMap naming.capitalized).filter Text.continuesIdentifier)

/-- The letters and digits of the text, each run but the first with a capital. -/
def camelCase (text : String) : String :=
  match Text.runs Char.isAlphanum text.toList with
  | [] => "contentType"
  | first :: later =>
    let joined := first ++ later.flatMap fun
      | [] => []
      | c :: rest => c.toUpper :: rest
    let clash := first.head?.any Char.isDigit
    String.ofList (if clash then 'c' :: 't' :: joined else joined)

def schemaName (naming : Naming) (id : String) : String :=
  (if Text.isIdentifier id then id else camelCase id) ++ naming.schemaSuffix

def typeName (naming : Naming) (id : String) : String :=
  let name := naming.typePrefix ++ naming.pascalCase id ++ naming.typeSuffix
  if name.toList.head?.any Text.startsIdentifier then name else "Type" ++ name

end Naming

end ContentSchema
