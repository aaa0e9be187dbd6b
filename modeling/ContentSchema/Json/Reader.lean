import ContentSchema.Json.Fault
import ContentSchema.Json.Parser

/-! # Readers

A reader takes a tree to a value of the domain, or to the first fault that it meets in the order of
the text. A record is read from an object by key, or from a list by position.
-/

namespace ContentSchema.Json

abbrev Reader (α : Type) := Tree → Except Fault α

/-- The number of containers that a text may hold open at once. -/
def maxDepth : Nat := 127

/-- The way on which a value comes to its reader. -/
inductive Origin where
  /-- Straight from the text. -/
  | text
  /-- Out of a document that was read as a whole. -/
  | stored
  /-- Out of an object whose members were set aside until its kind was known. -/
  | setAside
  deriving DecidableEq

def Tree.fault (wanted : Wanted) : Tree → Fault
  | null => .type .null wanted
  | bool b => .type (.bool b) wanted
  | num (some n) => .type (.num n) wanted
  | str (some s) => .type (.str s) wanted
  | list _ => .type .list wanted
  | object _ => .type .object wanted
  | num none => .grammar
  | str none => .grammar
  | broken => .grammar

namespace Reader

def string (wanted : Wanted) : Reader String
  | .str (some s) => .ok s
  | t => .error (t.fault wanted)

def text : Reader String := string .string

def path : Reader String := string .path

def bool : Reader Bool
  | .bool b => .ok b
  | t => .error (t.fault .boolean)

def key : Reader String
  | .str (some s) => .ok s
  | _ => .error .grammar

/-- Null stands for an absent value. -/
def optional {α : Type} (read : Reader α) : Reader (Option α)
  | .null => .ok none
  | t => (read t).map some

def list {α : Type} (room : Nat) (read : Reader α) : Reader (List α)
  | .list items => if room = 0 then .error .grammar else items.mapM read
  | t => .error (t.fault .list)

def entry {α : Type} (read : Reader α) (member : Tree × Tree) : Except Fault (String × α) := do
  let k ← key member.1
  let a ← read member.2
  return (k, a)

def map {α : Type} (room : Nat) (read : Reader α) : Reader (List (String × α))
  | .object members =>
    if room = 0 then .error .grammar else Entries.ofList <$> members.mapM (entry read)
  | t => .error (t.fault .map)

def skip : Reader Unit
  | t => if t.grammatical then .ok () else .error .grammar

/-- A value that is kept for later, and has to be without faults. -/
def keep (room : Nat) : Reader Unit
  | t => if (t.value? room).isSome then .ok () else .error .grammar

end Reader

/-- A variant of an enumeration: a plain name, or a name with a payload. -/
inductive Variant (α : Type) where
  | plain (a : α)
  | holding (read : Reader α)

namespace Variant

variable {α : Type}

def named (variants : List (String × Variant α)) (name : String) : Except Fault (Variant α) :=
  match variants.lookup name with
  | some v => .ok v
  | none => .error (.strangeVariant name (Entries.keys variants))

def bare : Variant α → Except Fault α
  | plain a => .ok a
  | holding _ => .error (.type .bareVariant .payload)

/-- What a plain name holds is null, or where it was set aside also an empty object. -/
def payload (origin : Origin) (held : Tree) : Variant α → Except Fault α
  | holding read => read held
  | plain a =>
    match held with
    | .null => .ok a
    | .object [] => if origin = .setAside then .ok a else .error (held.fault .nothing)
    | t => .error (t.fault .nothing)

/-- An enumeration is a name, or an object of one member whose key is the name. -/
def read (origin : Origin) (room : Nat) (variants : List (String × Variant α)) : Reader α
  | .str (some name) => do (← named variants name).bare
  | .object members =>
    match origin, members with
    | .text, [] => .error .grammar
    | .text, (k, held) :: others => do
      if room = 0 then throw .grammar
      let a ← (← named variants (← Reader.string .variantName k)).payload origin held
      if others.isEmpty then return a else throw .grammar
    | _, [(k, held)] => do (← named variants (← Reader.key k)).payload origin held
    | _, _ => .error (.value .object .singleVariant)
  | t => .error (if origin = .text then .grammar else t.fault .variant)

end Variant

/-- A member of a record, known by its key or an alias of it. -/
structure Slot (α : Type) where
  key : String
  aliases : List String
  mandatory : Bool
  set : α → Tree → Except Fault α

namespace Slot

variable {α β : Type}

def setWith (read : Reader β) (put : α → β → α) (a : α) (t : Tree) : Except Fault α :=
  (read t).map (put a)

def needed (key : String) (read : Reader β) (put : α → β → α) : Slot α where
  key := key
  aliases := []
  mandatory := true
  set := setWith read put

def defaulted (key : String) (read : Reader β) (put : α → β → α) : Slot α :=
  { needed key read put with mandatory := false }

def also (slot : Slot α) (name : String) : Slot α := { slot with aliases := name :: slot.aliases }

def answers (slot : Slot α) (key : String) : Bool := slot.key == key || slot.aliases.contains key

end Slot

/-- What becomes of the members that a record does not know. -/
inductive Others where
  | skipped
  | kept (room : Nat)
  | refused
  deriving DecidableEq

/-- A record starts out blank and every member sets a part of it. -/
structure Record (α : Type) where
  name : String
  blank : α
  slots : List (Slot α)
  others : Others

namespace Record

variable {α : Type}

def keys (record : Record α) : List String := record.slots.map (·.key)

def readOther (record : Record α) (key : String) (t : Tree) : Except Fault Unit :=
  match record.others with
  | .skipped => Reader.skip t
  | .kept room => Reader.keep room t
  | .refused => .error (.strangeMember key record.keys)

/-- Reads the members one by one; `seen` holds the keys of the slots that are set. -/
def readMembers (record : Record α) (seen : List String) (a : α) :
    List (Tree × Tree) → Except Fault α
  | [] =>
    match record.slots.find? fun slot => slot.mandatory && !seen.contains slot.key with
    | some slot => .error (.missingMember slot.key)
    | none => .ok a
  | (k, t) :: rest => do
    let key ← Reader.key k
    match record.slots.find? (·.answers key) with
    | none =>
      record.readOther key t
      readMembers record seen a rest
    | some slot =>
      if seen.contains slot.key then throw (.repeatedMember slot.key)
      let a ← slot.set a t
      readMembers record (slot.key :: seen) a rest

def surplus (origin : Origin) (items slots : Nat) : Fault :=
  match origin with
  | .text => .grammar
  | .stored => .length items .shorterList
  | .setAside => .length items (.sequence slots)

/-- Reads the items into the slots in order; `seen` counts the slots that are set. -/
def readItems (record : Record α) (origin : Origin) (seen : Nat) (a : α) :
    List (Slot α) → List Tree → Except Fault α
  | [], [] => .ok a
  | [], rest => .error (surplus origin (seen + rest.length) seen)
  | slot :: slots, [] =>
    if slot.mandatory then .error (.length seen (.items record.name record.slots.length))
    else readItems record origin (seen + 1) a slots []
  | slot :: slots, t :: rest => do
    let a ← slot.set a t
    readItems record origin (seen + 1) a slots rest

/-- The slots of a record that is read with some room are made for one level less. -/
def read (record : Record α) (origin : Origin) (room : Nat) : Reader α
  | .object members =>
    if room = 0 then .error .grammar else record.readMembers [] record.blank members
  | .list items =>
    if room = 0 then .error .grammar
    else record.readItems origin 0 record.blank record.slots items
  | t => .error (t.fault (.record record.name))

end Record

/-- A document that goes on after its value is refused last. -/
def Document.read {α : Type} (document : Document) (read : Reader α) : Except Fault α := do
  let a ← read document.root
  if document.trailing then throw .grammar
  return a

def Document.value? (document : Document) : Option Value :=
  if document.trailing then none else document.root.value? maxDepth

end ContentSchema.Json
