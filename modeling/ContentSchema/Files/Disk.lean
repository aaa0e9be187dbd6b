import ContentSchema.Generate
import ContentSchema.Options.Reader

/-! # Files

Reading and writing through a disk, which is what a run sees of a file system.
-/

namespace ContentSchema

structure Disk (m : Type → Type) where
  read : String → m (Except FileError String)
  isFile : String → m Bool
  write : String → String → m (Except FileError Unit)

def optionsFileName : String := "contentful-zod.config.json"

/-- A name in a directory; no directory stands for the working directory. -/
def joinPath (directory name : String) : String :=
  if directory.isEmpty then name
  else if directory.endsWith "/" then directory ++ name
  else directory ++ "/" ++ name

namespace Disk

variable {m : Type → Type} [Monad m] (disk : Disk m)

def loadOptions (path : String) : m (Except Failure Options) := do
  match ← disk.read path with
  | .error e => return .error (.unreadableOptions path e)
  | .ok text => return (Options.ofText text).mapError (.invalidOptions path)

/-- The options of a directory; without a file there are none. -/
def discoverOptions (directory : String) : m (Except Failure Options) := do
  let path := joinPath directory optionsFileName
  if ← disk.isFile path then disk.loadOptions path else return .ok .empty

def generate (path : String) (settings : Settings) : m (Except Failure Generated) := do
  match ← disk.read path with
  | .error e => return .error (.unreadableInput path e)
  | .ok text => return ContentSchema.generate text settings

def save (path : String) (generated : Generated) : m (Except Failure Unit) := do
  return (← disk.write path generated.source).mapError .file

end Disk

end ContentSchema
