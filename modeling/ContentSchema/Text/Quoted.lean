import ContentSchema.Text.Quoted.Table

/-! # Quoted text

A text between quotes, fit to be shown inside a message on one line.
-/

namespace ContentSchema.Text

def hexDigits (n : Nat) : List Char := Nat.toDigits 16 n

def shown (c : Char) : List Char :=
  match c with
  | '\x00' => ['\\', '0']
  | '\t' => ['\\', 't']
  | '\r' => ['\\', 'r']
  | '\n' => ['\\', 'n']
  | '\\' => ['\\', '\\']
  | '"' => ['\\', '"']
  | c =>
    if CharClass.unprintable.contains c then
      ['\\', 'u', '\x7b'] ++ hexDigits c.toNat ++ ['\x7d']
    else [c]

def quoted (text : String) : String :=
  "\"" ++ String.ofList (text.toList.flatMap shown) ++ "\""

end ContentSchema.Text
