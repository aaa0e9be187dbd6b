import ContentSchema.Files.Disk

/-! # File trees

The files below a working directory, each under the names that lead to it. Directories are those on
the way to a file. Of what lies outside the working directory only the way up is known.
-/

namespace ContentSchema

structure FileTree where
  files : List (List String × String)

/-- Where a path leads to: a place in the working directory, or a directory outside it. -/
inductive Place where
  | inside (names : List String)
  | outside
  deriving DecidableEq

namespace Place

def parent : Place → Place
  | inside [] => outside
  | inside names => inside names.dropLast
  | outside => outside

/-- The place that one part of a path leads to from a directory. -/
def step (place : Place) (part : String) : Except FileError Place :=
  if part = "" ∨ part = "." then .ok place
  else if part = ".." then .ok place.parent
  else if 255 < part.utf8ByteSize then .error .nameTooLong
  else match place with
    | inside names => .ok (inside (names ++ [part]))
    | outside => .error .notFound

end Place

namespace FileTree

def content? (tree : FileTree) : Place → Option String
  | .inside names => tree.files.lookup names
  | .outside => none

def isDirectory (tree : FileTree) : Place → Bool
  | .inside names =>
    names.isEmpty ||
      tree.files.any fun (file, _) => names.length < file.length && names.isPrefixOf file
  | .outside => true

def needDirectory (tree : FileTree) (place : Place) : Except FileError Unit :=
  if (tree.content? place).isSome then .error .notDirectory
  else if tree.isDirectory place then .ok ()
  else .error .notFound

/-- Follows the parts of a path from a place; every part but the last has to lead to a directory. -/
def follow (tree : FileTree) (place : Place) : List String → Except FileError Place
  | [] => .ok place
  | part :: rest => do
    tree.needDirectory place
    follow tree (← place.step part) rest

/-- Where a path begins, and its parts. -/
def divide (path : String) : Except FileError (Place × List String) :=
  if path.toList.contains '\x00' then .error .nulInPath
  else if path.isEmpty then .error .notFound
  else if 4096 ≤ path.utf8ByteSize then .error .nameTooLong
  else match (path.toList.splitOn '/').map String.ofList with
    | "" :: parts => .ok (.outside, parts)
    | parts => .ok (.inside [], parts)

def read (tree : FileTree) (path : String) : Except FileError String := do
  let (start, parts) ← divide path
  let place ← tree.follow start parts
  match tree.content? place with
  | some content => return content
  | none => throw (if tree.isDirectory place then .isDirectory else .notFound)

def isFile (tree : FileTree) (path : String) : Bool := (tree.read path).isOk

/-- The place of a file that is to be written. A path that ends in a slash names a directory,
whether or not there is one. -/
def target (tree : FileTree) (path : String) : Except FileError (List String) := do
  let (start, parts) ← divide path
  let names := parts.filter (· != "")
  if path.endsWith "/" then
    tree.needDirectory (← tree.follow start names.dropLast)
    throw .isDirectory
  let place ← tree.follow start names
  match place with
  | .inside names => if tree.isDirectory place then throw .isDirectory else return names
  | .outside => throw .isDirectory

def put (names : List String) (content : String) :
    List (List String × String) → List (List String × String)
  | [] => [(names, content)]
  | (file, old) :: rest =>
    if file = names then (file, content) :: rest else (file, old) :: put names content rest

/-- Replaces a file, or makes one in a directory that is there. -/
def write (tree : FileTree) (path content : String) : Except FileError FileTree := do
  return ⟨put (← tree.target path) content tree.files⟩

def disk : Disk (StateM FileTree) where
  read path := do return (← get).read path
  isFile path := do return (← get).isFile path
  write path content := do
    match (← get).write path content with
    | .ok tree => set tree; return .ok ()
    | .error e => return .error e

end FileTree

end ContentSchema
