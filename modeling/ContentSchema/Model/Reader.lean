import ContentSchema.Json.Reader
import ContentSchema.Model.Basic

/-! # Reading content models

The exported form of a content model. Members that the model does not know are skipped.
-/

namespace ContentSchema

open Json

def OneOrMany.read (room : Nat) : Reader OneOrMany
  | t =>
    match t.value? room with
    | none => .error .grammar
    | some (.str s) => .ok (one s)
    | some (.list items) =>
      match items.mapM Value.text? with
      | some values => .ok (many values)
      | none => .error (.noAlternative "OneOrMany")
    | some _ => .error (.noAlternative "OneOrMany")

def Validation.record (room : Nat) : Record Validation where
  name := "Validation"
  blank := ⟨none, none⟩
  slots :=
    let constraint := Reader.optional (OneOrMany.read (room - 1))
    [.defaulted "linkContentType" constraint fun v c => { v with linkContentType := c },
      .defaulted "linkMimetypeGroup" constraint fun v c => { v with linkMimetypeGroup := c }]
  others := .skipped

def Validation.read (room : Nat) : Reader Validation := (record room).read .text room

namespace Descriptor

def blank : Descriptor := ⟨"", none, []⟩

def validationsReader (room : Nat) : Reader (List Validation) :=
  Reader.list room (Validation.read (room - 1))

/-- The record of an item and its items, where `inner` reads the latter. -/
def chainRecord (room : Nat) (inner : Reader (List Descriptor)) :
    Record (Descriptor × List Descriptor) where
  name := "FieldItems"
  blank := (blank, [])
  slots :=
    [.needed "type" Reader.text fun (d, inner) s => ({ d with kind := s }, inner),
      .defaulted "linkType" (Reader.optional Reader.text) fun (d, inner) s =>
        ({ d with linkType := s }, inner),
      .defaulted "items" (Reader.optional inner) fun (d, _) inner => (d, inner.getD []),
      .defaulted "validations" (validationsReader (room - 1)) fun (d, inner) vs =>
        ({ d with validations := vs }, inner)]
  others := .skipped

/-- Reads an item and its items, outermost first. -/
def readChain : Nat → Reader (List Descriptor)
  | 0, t =>
    ((chainRecord 0 fun _ => .error .grammar).read .text 0 t).map fun (d, inner) => d :: inner
  | room + 1, t =>
    ((chainRecord (room + 1) (readChain room)).read .text (room + 1) t).map fun (d, inner) =>
      d :: inner

end Descriptor

namespace Field

def blank : Field := ⟨"", "", .blank, [], false, false⟩

def record (room : Nat) : Record Field where
  name := "Field"
  blank := blank
  slots :=
    [.needed "id" Reader.text fun f s => { f with id := s },
      .defaulted "name" Reader.text fun f s => { f with name := s },
      .needed "type" Reader.text fun f s => { f with holds.kind := s },
      .defaulted "linkType" (Reader.optional Reader.text) fun f s =>
        { f with holds.linkType := s },
      .defaulted "items" (Reader.optional (Descriptor.readChain (room - 1))) fun f items =>
        { f with items := items.getD [] },
      .defaulted "validations" (Descriptor.validationsReader (room - 1)) fun f vs =>
        { f with holds.validations := vs },
      .defaulted "required" Reader.bool fun f b => { f with required := b },
      .defaulted "localized" Reader.bool fun f b => { f with localized := b }]
  others := .skipped

def read (room : Nat) : Reader Field := (record room).read .text room

end Field

namespace ContentType

def sysRecord : Record String where
  name := "ContentTypeSys"
  blank := ""
  slots := [.needed "id" Reader.text fun _ id => id]
  others := .skipped

def blank : ContentType := ⟨"", "", none, none, []⟩

def record (room : Nat) : Record ContentType where
  name := "ContentType"
  blank := blank
  slots :=
    [.needed "sys" (sysRecord.read .text (room - 1)) fun ct id => { ct with id := id },
      .defaulted "name" Reader.text fun ct s => { ct with name := s },
      .defaulted "description" (Reader.optional Reader.text) fun ct s =>
        { ct with description := s },
      .defaulted "displayField" (Reader.optional Reader.text) fun ct s =>
        { ct with displayField := s },
      .defaulted "fields" (Reader.list (room - 1) (Field.read (room - 2))) fun ct fields =>
        { ct with fields := fields }]
  others := .skipped

def read (room : Nat) : Reader ContentType := (record room).read .text room

end ContentType

namespace ContentModel

/-- Content types stand under `contentTypes`, or in an answer of the content service under
`items`. -/
def record (room : Nat) : Record ContentModel where
  name := "ContentfulSchema"
  blank := ⟨[]⟩
  slots :=
    [(Slot.defaulted "contentTypes" (Reader.list (room - 1) (ContentType.read (room - 2)))
      fun _ types => ⟨types⟩).also "items"]
  others := .skipped

def read (room : Nat) : Reader ContentModel := (record room).read .text room

def ofText (text : String) : Except Fault ContentModel :=
  (Document.ofText text).read (read maxDepth)

end ContentModel

end ContentSchema
