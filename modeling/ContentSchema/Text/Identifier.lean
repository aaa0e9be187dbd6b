/-! # Identifiers

Which texts may stand as a name in a generated module, and how a property key is written there.
-/

namespace ContentSchema.Text

def startsIdentifier (c : Char) : Bool := c == '_' || c == '$' || c.isAlpha

def continuesIdentifier (c : Char) : Bool := c == '_' || c == '$' || c.isAlphanum

def reservedWords : List String :=
  ["break", "case", "catch", "class", "const", "continue", "debugger", "default", "delete", "do",
    "else", "enum", "export", "extends", "false", "finally", "for", "function", "if", "import",
    "in", "instanceof", "new", "null", "return", "super", "switch", "this", "throw", "true", "try",
    "typeof", "var", "void", "while", "with", "implements", "interface", "let", "package",
    "private", "protected", "public", "static", "yield"]

def isIdentifier (text : String) : Bool :=
  match text.toList with
  | [] => false
  | c :: rest => startsIdentifier c && rest.all continuesIdentifier && !reservedWords.contains text

def escapeQuotes (text : String) : String :=
  String.ofList (text.toList.flatMap fun c => if c = '\\' ∨ c = '"' then ['\\', c] else [c])

/-- A key is written bare where it is an identifier, and between quotes otherwise. -/
def propertyName (key : String) : String :=
  if isIdentifier key then key else "\"" ++ escapeQuotes key ++ "\""

end ContentSchema.Text
