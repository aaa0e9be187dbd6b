import ContentSchema.Json.Token

/-! # Parsing

Tokens are taken in one by one against a stack of open containers. At the first token that does not
fit, the tree read so far is closed with a broken part.
-/

namespace ContentSchema.Json

/-- An open container and what it waits for; its parts are kept last first. -/
inductive Frame where
  | item (items : List Tree)
  | afterItem (items : List Tree)
  | key (members : List (Tree × Tree))
  | colon (members : List (Tree × Tree)) (key : Tree)
  | value (members : List (Tree × Tree)) (key : Tree)
  | afterMember (members : List (Tree × Tree))

/-- The document with `t` in the place that the text has come to. -/
def Frame.fill (t : Tree) : List Frame → Tree
  | [] => t
  | item items :: outer => fill (.list (t :: items).reverse) outer
  | afterItem items :: outer => fill (.list (t :: items).reverse) outer
  | key members :: outer => fill (.object ((.broken, t) :: members).reverse) outer
  | colon members k :: outer => fill (.object ((k, t) :: members).reverse) outer
  | value members k :: outer => fill (.object ((k, t) :: members).reverse) outer
  | afterMember members :: outer => fill (.object ((.broken, t) :: members).reverse) outer

inductive Progress where
  | reading (stack : List Frame)
  | complete (root : Tree)
  | trailing (root : Tree)
  | stopped (root : Tree)

namespace Progress

def stop (stack : List Frame) : Progress := stopped (Frame.fill .broken stack)

/-- Puts a whole value in the place that the text has come to. -/
def settle (t : Tree) : List Frame → Progress
  | [] => complete t
  | .item items :: outer => reading (.afterItem (t :: items) :: outer)
  | .value members k :: outer => reading (.afterMember ((k, t) :: members) :: outer)
  | stack => stop stack

/-- A key that is no string ends the reading. -/
def settleKey (members : List (Tree × Tree)) (outer : List Frame) : Tree → Progress
  | .str s => reading (.colon members (.str s) :: outer)
  | k => stop (.colon members k :: outer)

def opening (frame : Frame) : List Frame → Progress
  | [] => reading [frame]
  | .item items :: outer => reading (frame :: .item items :: outer)
  | .value members k :: outer => reading (frame :: .value members k :: outer)
  | stack => stop stack

def take (stack : List Frame) (token : Token) : Progress :=
  match stack, token with
  | .key [] :: outer, .closeObject => settle (.object []) outer
  | .key members :: outer, .leaf t => settleKey members outer t
  | .key members :: outer, .openList => settleKey members outer (.list [])
  | .key members :: outer, .openObject => settleKey members outer (.object [])
  | .colon members k :: outer, .colon => reading (.value members k :: outer)
  | .afterMember members :: outer, .comma => reading (.key members :: outer)
  | .afterMember members :: outer, .closeObject => settle (.object members.reverse) outer
  | .item [] :: outer, .closeList => settle (.list []) outer
  | .afterItem items :: outer, .comma => reading (.item items :: outer)
  | .afterItem items :: outer, .closeList => settle (.list items.reverse) outer
  | stack, .leaf t => settle t stack
  | stack, .openList => opening (.item []) stack
  | stack, .openObject => opening (.key []) stack
  | stack, _ => stop stack

def next : Progress → Token → Progress
  | reading stack, token => take stack token
  | complete root, _ => trailing root
  | rest, _ => rest

def document : Progress → Document
  | reading stack => ⟨Frame.fill .broken stack, false⟩
  | complete root => ⟨root, false⟩
  | trailing root => ⟨root, true⟩
  | stopped root => ⟨root, false⟩

end Progress

def Document.ofTokens (tokens : List Token) : Document :=
  (tokens.foldl Progress.next (.reading [])).document

def Document.ofText (text : String) : Document := ofTokens (Token.cut text.toList)

end ContentSchema.Json
