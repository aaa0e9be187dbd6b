import ContentSchema.Options.Basic

/-! # Arguments

The arguments of the command line. They are taken in from the left, and the first that cannot be
taken, or that asks for help or the version, ends the reading.
-/

namespace ContentSchema.CommandLine

structure Arguments where
  input : Option String
  output : Option String
  unknown : Option UnknownPolicy
  options : Option String
  passthrough : Bool
  flat : Bool
  abortOnUnknown : Bool
  emitStored : Bool
  fromStored : Bool
  deriving DecidableEq

namespace Arguments

def empty : Arguments := ⟨none, none, none, none, false, false, false, false, false⟩

/-- The arguments as a layer of options. -/
def layer (a : Arguments) : Options :=
  { Options.empty with
    input := a.input
    output := a.output
    passthrough := if a.passthrough then some true else none
    flat := if a.flat then some true else none
    policy.unknown := if a.abortOnUnknown then some .fail else a.unknown }

end Arguments

inductive Misuse where
  | unexpected (argument : String)
  | valueMissing (option : String)
  | valueRefused (option value : String)
  | repeated (option : String)
  | conflict (option other : String)
  deriving DecidableEq

/-- Why the reading of arguments ends before a run. -/
inductive Stop where
  | help
  | version
  | misuse (cause : Misuse)
  deriving DecidableEq

def Misuse.message : Misuse → String
  | unexpected argument => s!"unexpected argument '{argument}' found"
  | valueMissing option => s!"a value is required for '{option}' but none was supplied"
  | valueRefused option value => s!"invalid value '{value}' for '{option}'"
  | repeated option => s!"the argument '{option}' cannot be used multiple times"
  | conflict option other => s!"the argument '{option}' cannot be used with '{other}'"

inductive Switch where
  | passthrough
  | flat
  | abortOnUnknown
  | emitStored
  | fromStored
  deriving DecidableEq

inductive Setting where
  | input
  | output
  | unknown
  | options
  deriving DecidableEq

namespace Switch

def names : List (String × Switch) :=
  [("passthrough", passthrough), ("flat", flat), ("abort-on-unknown", abortOnUnknown),
    ("emit-ir", emitStored), ("from-ir", fromStored)]

def isOn (a : Arguments) : Switch → Bool
  | passthrough => a.passthrough
  | flat => a.flat
  | abortOnUnknown => a.abortOnUnknown
  | emitStored => a.emitStored
  | fromStored => a.fromStored

def turnOn (a : Arguments) : Switch → Arguments
  | passthrough => { a with passthrough := true }
  | flat => { a with flat := true }
  | abortOnUnknown => { a with abortOnUnknown := true }
  | emitStored => { a with emitStored := true }
  | fromStored => { a with fromStored := true }

def take (shown : String) (s : Switch) (a : Arguments) : Except Stop Arguments :=
  if s.isOn a then .error (.misuse (.repeated shown)) else .ok (s.turnOn a)

end Switch

namespace Setting

def names : List (String × Setting) :=
  [("input", input), ("output", output), ("unknown", unknown), ("config", options)]

def letters : List (Char × Setting) := [('i', input), ('o', output)]

def isGiven (a : Arguments) : Setting → Bool
  | input => a.input.isSome
  | output => a.output.isSome
  | unknown => a.unknown.isSome
  | options => a.options.isSome

/-- A path may not be empty, and a policy has to be one. -/
def give (a : Arguments) (value : String) : Setting → Option Arguments
  | input => if value.isEmpty then none else some { a with input := some value }
  | output => if value.isEmpty then none else some { a with output := some value }
  | unknown => (UnknownPolicy.ofName? value).map fun p => { a with unknown := some p }
  | options => if value.isEmpty then none else some { a with options := some value }

def take (shown value : String) (s : Setting) (a : Arguments) : Except Stop Arguments :=
  if s.isGiven a then .error (.misuse (.repeated shown))
  else match s.give a value with
    | some a => .ok a
    | none => .error (.misuse (.valueRefused shown value))

end Setting

inductive Word where
  | stop (why : Stop)
  | switch (shown : String) (s : Switch)
  | setting (shown : String) (s : Setting) (value : Option String)
  /-- No options follow. -/
  | ending

namespace Word

def refused (argument : String) : Word := stop (.misuse (.unexpected argument))

def ofLong (argument : String) (text : List Char) : Word :=
  let name := String.ofList (text.takeWhile (· != '='))
  let value := (text.dropWhile (· != '=')).tail?.map String.ofList
  match Setting.names.lookup name, value with
  | some s, value => setting ("--" ++ name) s value
  | none, some _ => refused argument
  | none, none =>
    match Switch.names.lookup name with
    | some s => switch argument s
    | none =>
      if name = "help" then stop .help
      else if name = "version" then stop .version
      else refused argument

/-- A value may stand right behind the letter, with or without an equals sign. -/
def ofShort (argument : String) (letter : Char) (text : List Char) : Word :=
  match Setting.letters.lookup letter with
  | some s =>
    setting (String.ofList ['-', letter]) s (match text with
      | [] => none
      | '=' :: value => some (String.ofList value)
      | value => some (String.ofList value))
  | none =>
    if letter = 'h' then stop .help else if letter = 'V' then stop .version else refused argument

def ofArgument (argument : String) : Word :=
  match argument.toList with
  | ['-', '-'] => ending
  | '-' :: '-' :: text => ofLong argument text
  | '-' :: letter :: text => ofShort argument letter text
  | _ => refused argument

end Word

/-- An argument that begins with a dash is no value, unless the dash is all of it. -/
def isValue (argument : String) : Bool := argument == "-" || !argument.startsWith "-"

namespace Arguments

/-- Takes in the arguments on top of those that came before. -/
def take (a : Arguments) : List String → Except Stop Arguments
  | [] => .ok a
  | argument :: rest =>
    match Word.ofArgument argument with
    | .stop why => .error why
    | .ending =>
      match rest with
      | [] => .ok a
      | surplus :: _ => .error (.misuse (.unexpected surplus))
    | .switch shown s => do take (← s.take shown a) rest
    | .setting shown s (some value) => do take (← s.take shown value a) rest
    | .setting shown s none =>
      match rest with
      | [] => .error (.misuse (.valueMissing shown))
      | value :: rest =>
        if isValue value then do take (← s.take shown value a) rest
        else .error (.misuse (.valueMissing shown))

def check (a : Arguments) : Except Stop Arguments :=
  if a.abortOnUnknown && a.unknown.isSome then
    .error (.misuse (.conflict "--abort-on-unknown" "--unknown"))
  else if a.emitStored && a.fromStored then .error (.misuse (.conflict "--emit-ir" "--from-ir"))
  else .ok a

def ofList (arguments : List String) : Except Stop Arguments := do (← take empty arguments).check

end Arguments

end ContentSchema.CommandLine
