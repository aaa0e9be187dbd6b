import ContentSchema.Json.Value
import ContentSchema.Options.Basic

/-! # Writing options

The form of a layer of options; what it does not set is left out.
-/

namespace ContentSchema

open Json

def NamingOptions.toValue (o : NamingOptions) : Value :=
  .object (Value.optional "schemaSuffix" (o.schemaSuffix.map .str) ++
    Value.optional "typePrefix" (o.typePrefix.map .str) ++
    Value.optional "typeSuffix" (o.typeSuffix.map .str) ++
    Value.optional "abbreviations" (o.abbreviations.map fun ws => .list (ws.map .str)))

def Options.toValue (o : Options) : Value :=
  .object (Value.optional "input" (o.input.map .str) ++
    Value.optional "output" (o.output.map .str) ++
    Value.optional "passthrough" (o.passthrough.map .bool) ++
    Value.optional "flat" (o.flat.map .bool) ++
    Value.optional "unknown" (o.policy.unknown.map fun p => .str p.name) ++
    Value.optional "allowUnknown" (o.policy.allowUnknown.map .bool) ++
    Value.optional "abortOnUnknown" (o.policy.abortOnUnknown.map .bool) ++
    Value.optional "naming" (o.naming.map (·.toValue)))

end ContentSchema
