import ContentSchema.CommandLine.Run

/-! # The program

The command line on the file system of the machine.
-/

namespace ContentSchema

/-- Errors on paths that lead to no file are told apart by their system code, of either sign. -/
def systemFault : IO.Error → FileError
  | .noFileOrDirectory .. => .notFound
  | .inappropriateType _ code _ =>
    if code = 20 ∨ code = -20 then .notDirectory else .isDirectory
  | .permissionDenied .. => .other "Permission denied (os error 13)"
  | e@(.invalidArgument _ code _) =>
    if code = 36 ∨ code = -36 then .nameTooLong else .other (toString e)
  | e => .other (toString e)

def readSystemFile (path : String) : IO (Except FileError String) := do
  try
    let bytes ← IO.FS.readBinFile path
    return match String.fromUTF8? bytes with
      | some text => .ok text
      | none => .error .notText
  catch e => return .error (systemFault e)

def systemDisk : Disk IO where
  read := readSystemFile
  isFile path := do
    match ← readSystemFile path with
    | .error .notFound => return false
    | .error .notDirectory => return false
    | .error .isDirectory => return false
    | _ => return true
  write path content := do
    try
      IO.FS.writeFile path content
      return .ok ()
    catch e => return .error (systemFault e)

/-- The log as it is by default, with a line for each warning. -/
def systemLog : Log := fun warnings => warnings.map (" WARN " ++ ·)

end ContentSchema

def main (arguments : List String) : IO UInt32 := do
  let directory := toString (← IO.currentDir)
  let outcome ← ContentSchema.CommandLine.run ContentSchema.systemDisk directory arguments
  for line in outcome.errorOutput ContentSchema.systemLog do
    IO.eprintln line
  IO.print outcome.output
  return outcome.exitCode.toUInt32
