import ContentSchema.Json.Reader
import ContentSchema.Options.Basic

/-! # Reading options

The form of a layer of options. Members that it does not know are refused.
-/

namespace ContentSchema

open Json

def UnknownPolicy.read (room : Nat) : Reader UnknownPolicy :=
  Variant.read .text room (variants.map fun (name, policy) => (name, .plain policy))

def NamingOptions.record (room : Nat) : Record NamingOptions where
  name := "NamingOptions"
  blank := .empty
  slots :=
    let text := Reader.optional Reader.text
    [.defaulted "schemaSuffix" text fun o s => { o with schemaSuffix := s },
      .defaulted "typePrefix" text fun o s => { o with typePrefix := s },
      .defaulted "typeSuffix" text fun o s => { o with typeSuffix := s },
      .defaulted "abbreviations" (Reader.optional (Reader.list (room - 1) Reader.text)) fun o ws =>
        { o with abbreviations := ws }]
  others := .refused

def NamingOptions.read (room : Nat) : Reader NamingOptions := (record room).read .text room

namespace Options

def record (room : Nat) : Record Options where
  name := "GeneratorOptions"
  blank := .empty
  slots :=
    let path := Reader.optional Reader.path
    let switch := Reader.optional Reader.bool
    [.defaulted "input" path fun o p => { o with input := p },
      .defaulted "output" path fun o p => { o with output := p },
      .defaulted "passthrough" switch fun o b => { o with passthrough := b },
      .defaulted "flat" switch fun o b => { o with flat := b },
      .defaulted "unknown" (Reader.optional (UnknownPolicy.read (room - 1))) fun o p =>
        { o with policy.unknown := p },
      .defaulted "allowUnknown" switch fun o b => { o with policy.allowUnknown := b },
      .defaulted "abortOnUnknown" switch fun o b => { o with policy.abortOnUnknown := b },
      .defaulted "naming" (Reader.optional (NamingOptions.read (room - 1))) fun o n =>
        { o with naming := n }]
  others := .refused

def read (room : Nat) : Reader Options := (record room).read .text room

def ofText (text : String) : Except Fault Options := (Document.ofText text).read (read maxDepth)

end Options

def NamingOptions.ofText (text : String) : Except Fault NamingOptions :=
  (Document.ofText text).read (read maxDepth)

end ContentSchema
