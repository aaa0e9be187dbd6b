import ContentSchema.Json.Value

/-! # Syntax trees

A JSON text as far as it can be read: where it breaks the grammar the tree has a broken part, so
that a reader who walks the tree in order meets the faults of the text in the order of the text.
-/

namespace ContentSchema.Json

/-- A number is missing if it lies beyond the doubles, a string if it has half a surrogate pair.
The key of a member is whatever stands in its place. A container that does not end has a last part
that is broken. -/
inductive Tree where
  | null
  | bool (b : Bool)
  | num (n : Option Number)
  | str (s : Option String)
  | list (items : List Tree)
  | object (members : List (Tree × Tree))
  | broken
  deriving Inhabited

namespace Tree

mutual

def ofValue : Value → Tree
  | .null => null
  | .bool b => bool b
  | .num n => num (some n)
  | .str s => str (some s)
  | .list items => list (ofItems items)
  | .object members => object (ofMembers members)

def ofItems : List Value → List Tree
  | [] => []
  | v :: rest => ofValue v :: ofItems rest

def ofMembers : List (String × Value) → List (Tree × Tree)
  | [] => []
  | (key, v) :: rest => (str (some key), ofValue v) :: ofMembers rest

end

mutual

/-- Whether the text keeps to the grammar; numbers and strings may lack a value. -/
def grammatical : Tree → Bool
  | list items => grammaticalItems items
  | object members => grammaticalMembers members
  | broken => false
  | _ => true

def grammaticalItems : List Tree → Bool
  | [] => true
  | t :: rest => t.grammatical && grammaticalItems rest

def grammaticalMembers : List (Tree × Tree) → Bool
  | [] => true
  | (_, t) :: rest => t.grammatical && grammaticalMembers rest

end

mutual

/-- The value of a text without faults that nests at most `room` deep. A key that comes again
keeps its first place and takes its last value. -/
def value? (room : Nat) : Tree → Option Value
  | null => some .null
  | bool b => some (.bool b)
  | num n => n.map .num
  | str s => s.map .str
  | list items => if room = 0 then none else (itemValues? (room - 1) items).map .list
  | object members =>
    if room = 0 then none
    else (memberValues? (room - 1) members).map fun entries => .object (Entries.ofList entries)
  | broken => none

def itemValues? (room : Nat) : List Tree → Option (List Value)
  | [] => some []
  | t :: rest => do
    let v ← t.value? room
    let values ← itemValues? room rest
    return v :: values

def memberValues? (room : Nat) : List (Tree × Tree) → Option (List (String × Value))
  | [] => some []
  | (str (some key), t) :: rest => do
    let v ← t.value? room
    let values ← memberValues? room rest
    return (key, v) :: values
  | _ :: _ => none

end

mutual

def depth : Tree → Nat
  | list items => itemsDepth items + 1
  | object members => membersDepth members + 1
  | _ => 0

def itemsDepth : List Tree → Nat
  | [] => 0
  | t :: rest => max t.depth (itemsDepth rest)

def membersDepth : List (Tree × Tree) → Nat
  | [] => 0
  | (_, t) :: rest => max t.depth (membersDepth rest)

end

end Tree

/-- A text holds one value; nothing but blanks may follow it. -/
structure Document where
  root : Tree
  trailing : Bool

end ContentSchema.Json
