import ContentSchema.Naming.Basic

/-! # Options

Options come in layers, of which a later one wins option by option; the settings that a run works
with fill in what no layer sets.
-/

namespace ContentSchema

/-- What to do with a field whose kind has no validator. -/
inductive UnknownPolicy where
  | fail
  | warn
  | ignore
  deriving DecidableEq

/-- What an object does with keys outside its shape. -/
inductive ObjectPolicy where
  | strict
  | passthrough
  | strip
  deriving DecidableEq

def UnknownPolicy.variants : List (String × UnknownPolicy) :=
  [("fail", .fail), ("warn", .warn), ("ignore", .ignore)]

def UnknownPolicy.ofName? (name : String) : Option UnknownPolicy := variants.lookup name

def UnknownPolicy.name : UnknownPolicy → String
  | fail => "fail"
  | warn => "warn"
  | ignore => "ignore"

def ObjectPolicy.name : ObjectPolicy → String
  | strict => "strict"
  | passthrough => "passthrough"
  | strip => "strip"

/-- Three ways to set the policy for unknown kinds; a layer that uses one replaces them all. -/
structure PolicyOptions where
  unknown : Option UnknownPolicy
  allowUnknown : Option Bool
  abortOnUnknown : Option Bool
  deriving DecidableEq

namespace PolicyOptions

def empty : PolicyOptions := ⟨none, none, none⟩

def isSet (p : PolicyOptions) : Bool :=
  p.unknown.isSome || p.allowUnknown.isSome || p.abortOnUnknown.isSome

def merge (base top : PolicyOptions) : PolicyOptions := if top.isSet then top else base

/-- The named policy comes before the demand to abort, and that before the leave to go on. -/
def policy? (p : PolicyOptions) : Option UnknownPolicy :=
  (p.unknown.or (p.abortOnUnknown.map fun abort => if abort then .fail else .warn)).or
    (p.allowUnknown.map fun allow => if allow then .warn else .fail)

end PolicyOptions

structure NamingOptions where
  schemaSuffix : Option String
  typePrefix : Option String
  typeSuffix : Option String
  abbreviations : Option (List String)
  deriving DecidableEq

namespace NamingOptions

def empty : NamingOptions := ⟨none, none, none, none⟩

def merge (base top : NamingOptions) : NamingOptions where
  schemaSuffix := top.schemaSuffix.or base.schemaSuffix
  typePrefix := top.typePrefix.or base.typePrefix
  typeSuffix := top.typeSuffix.or base.typeSuffix
  abbreviations := top.abbreviations.or base.abbreviations

/-- Abbreviations are looked up in lower case, and so kept in it as far as they are ASCII. -/
def resolve (o : NamingOptions) : Naming where
  schemaSuffix := o.schemaSuffix.getD Naming.standard.schemaSuffix
  typePrefix := o.typePrefix.getD Naming.standard.typePrefix
  typeSuffix := o.typeSuffix.getD Naming.standard.typeSuffix
  abbreviations := (o.abbreviations.map (·.map asciiLower)).getD Naming.standard.abbreviations
where
  asciiLower (word : String) : String := String.ofList (word.toList.map Char.toLower)

end NamingOptions

/-- One layer of options. -/
structure Options where
  input : Option String
  output : Option String
  passthrough : Option Bool
  flat : Option Bool
  policy : PolicyOptions
  naming : Option NamingOptions
  deriving DecidableEq

/-- What a run works with. -/
structure Settings where
  passthrough : Bool
  unknown : UnknownPolicy
  flat : Bool
  naming : Naming
  deriving DecidableEq

namespace Options

def empty : Options := ⟨none, none, none, none, .empty, none⟩

def mergeNaming : Option NamingOptions → Option NamingOptions → Option NamingOptions
  | some base, some top => some (base.merge top)
  | base, top => top.or base

def merge (base top : Options) : Options where
  input := top.input.or base.input
  output := top.output.or base.output
  passthrough := top.passthrough.or base.passthrough
  flat := top.flat.or base.flat
  policy := base.policy.merge top.policy
  naming := mergeNaming base.naming top.naming

def resolve (o : Options) : Settings where
  passthrough := o.passthrough.getD false
  unknown := o.policy.policy?.getD .warn
  flat := o.flat.getD false
  naming := (o.naming.getD .empty).resolve

end Options

/-- The policy of an entry's root object and of the object of its fields. -/
def Settings.objectPolicy (s : Settings) : ObjectPolicy :=
  if s.passthrough then .passthrough else .strict

end ContentSchema
