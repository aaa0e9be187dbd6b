import ContentSchema.CommandLine.Arguments
import ContentSchema.Files.Disk
import ContentSchema.Log

/-! # Runs

A run writes the generated text to the standard output or to a file; a run that fails writes to
neither.
-/

namespace ContentSchema.CommandLine

structure Outcome where
  exitCode : Nat
  output : String
  /-- The warnings that have gone to the log. -/
  logged : List String
  /-- The messages for the error output, one after the other. -/
  messages : List String
  deriving DecidableEq

namespace Outcome

/-- The lines of the log come first, as nothing is logged once the messages are written. -/
def errorOutput (log : Log) (outcome : Outcome) : List String :=
  log outcome.logged ++ outcome.messages

def printed (text : String) : Outcome := ⟨0, text, [], []⟩

def failed (logged warnings : List String) (message : String) : Outcome :=
  ⟨1, "", logged, warnings ++ ["error: " ++ message]⟩

def misused (cause : Misuse) : Outcome := ⟨2, "", [], ["error: " ++ cause.message]⟩

end Outcome

def versionText : String := "contentful-zod 0.1.0\n"

def helpText : String :=
  String.join ([
    "Generate zod schemas and TypeScript types from a Contentful content model export",
    "",
    "Usage: contentful-zod [OPTIONS]",
    "",
    "Options:",
    "  -i, --input <INPUT>      Contentful export JSON (or an IR document with --from-ir)",
    "  -o, --output <OUTPUT>    Output .ts file (stdout if omitted)",
    "      --passthrough        Keep unknown object keys instead of rejecting them",
    "      --flat               Inline every linked schema instead of referencing it by name",
    "      --unknown <UNKNOWN>  Handling of unsupported field types: fail, warn or ignore",
    "      --abort-on-unknown   Shortcut for --unknown fail",
    "      --config <CONFIG>    Config file (defaults to contentful-zod.config.json in the " ++
      "working directory)",
    "      --emit-ir            Write the assembled schema graph as JSON instead of TypeScript",
    "      --from-ir            Treat the input as a schema graph written by --emit-ir",
    "  -h, --help               Print help",
    "  -V, --version            Print version"
  ].map (· ++ "\n"))

namespace Arguments

variable {m : Type → Type} [Monad m] (disk : Disk m)

/-- The options of the named file, or of the working directory. -/
def fileOptions (directory : String) (a : Arguments) : m (Except Failure Options) :=
  match a.options with
  | some path => disk.loadOptions path
  | none => disk.discoverOptions directory

def generated (a : Arguments) (settings : Settings) (text : String) : Except Failure Generated :=
  if a.emitStored then generateStored text settings
  else if a.fromStored then renderStored text settings
  else generate text settings

def logged (a : Arguments) (settings : Settings) (text : String) : List String :=
  if a.emitStored then generateStoredLog text settings
  else if a.fromStored then renderStoredLog text settings
  else generateLog text settings

def deliver (output : Option String) (logged : List String) (generated : Generated) :
    m Outcome := do
  let warnings := generated.warnings.map ("warning: " ++ ·)
  match output with
  | none => return ⟨0, generated.source, logged, warnings⟩
  | some path =>
    match ← disk.write path generated.source with
    | .ok () => return ⟨0, "", logged, warnings ++ ["wrote " ++ path]⟩
    | .error e =>
      return .failed logged warnings
        (s!"failed to write '{path}': " ++ (Failure.file e).message ++ ": " ++ e.message)

def run (directory : String) (a : Arguments) : m Outcome := do
  match ← a.fileOptions disk directory with
  | .error failure => return .failed [] [] failure.message
  | .ok options =>
    let options := options.merge a.layer
    match options.input with
    | none =>
      return .failed [] []
        "no input file given (use --input or set \"input\" in the config file)"
    | some input =>
      match ← disk.read input with
      | .error e => return .failed [] [] (unreadable input e)
      | .ok text =>
        let logged := a.logged options.resolve text
        match a.generated options.resolve text with
        | .error failure => return .failed logged [] failure.message
        | .ok generated => deliver disk options.output logged generated

end Arguments

def run {m : Type → Type} [Monad m] (disk : Disk m) (directory : String)
    (arguments : List String) : m Outcome :=
  match Arguments.ofList arguments with
  | .ok a => a.run disk directory
  | .error .help => return .printed helpText
  | .error .version => return .printed versionText
  | .error (.misuse cause) => return .misused cause

end ContentSchema.CommandLine
