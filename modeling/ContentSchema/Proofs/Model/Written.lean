import ContentSchema.Model.Writer
import ContentSchema.Proofs.Json.TextRoundTrip

/-! # Written content models

The exported form of a content model has no key twice, so that its text is read back as it is.
-/

namespace ContentSchema

open Json

theorem OneOrMany.plain_toValue (c : OneOrMany) : c.toValue.Plain := by
  cases c with
  | one value => exact .str value
  | many values => exact .list (by simp [Value.Plain.str])

theorem Validation.plain_toValue (v : Validation) : v.toValue.Plain := by
  rcases v with ⟨_ | c, _ | d⟩ <;>
    exact .object (by simp [Value.optional, Entries.keys])
      (by simp [Value.optional, OneOrMany.plain_toValue])

namespace Descriptor

theorem plain_validationsMember (d : Descriptor) : d.validationsMember.2.Plain := by
  refine .list ?_
  rw [List.forall_mem_map]
  intro v _
  exact v.plain_toValue

theorem plain_chainValue? {chain : List Descriptor} {v : Value} (h : chainValue? chain = some v) :
    v.Plain := by
  induction chain generalizing v with
  | nil => cases h
  | cons d inner ih =>
    have hv := d.plain_validationsMember
    obtain rfl := Option.some.inj h
    obtain ⟨kind, _ | linkType, validations⟩ := d <;> cases hc : chainValue? inner <;>
      refine .object ?_ ?_ <;>
      simp_all [kindMembers, validationsMember, Value.optional, Entries.keys, Value.Plain.str]

end Descriptor

theorem Field.plain_toValue (f : Field) : f.toValue.Plain := by
  have hv := f.holds.plain_validationsMember
  have hi : ∀ v, Descriptor.chainValue? f.items = some v → v.Plain :=
    fun _ => Descriptor.plain_chainValue?
  obtain ⟨id, name, ⟨kind, _ | linkType, validations⟩, items, required, localized⟩ := f <;>
    cases hc : Descriptor.chainValue? items <;> refine .object ?_ ?_ <;>
    simp_all [Descriptor.kindMembers, Descriptor.validationsMember, Value.optional, Entries.keys,
      Value.Plain.str, Value.Plain.bool]

theorem ContentType.plain_toValue (ct : ContentType) : ct.toValue.Plain := by
  have hs : (Value.object [("id", .str ct.id)]).Plain :=
    .object (by simp [Entries.keys]) (by simp [Value.Plain.str])
  have hf : (Value.list (ct.fields.map (·.toValue))).Plain :=
    .list (by simp [Field.plain_toValue])
  obtain ⟨id, name, _ | description, _ | displayField, fields⟩ := ct <;> refine .object ?_ ?_ <;>
    simp_all [Value.optional, Entries.keys, Value.Plain.str]

theorem ContentModel.plain_toValue (model : ContentModel) : model.toValue.Plain := by
  have ht : (Value.list (model.contentTypes.map (·.toValue))).Plain :=
    .list (by simp [ContentType.plain_toValue])
  exact .object (by simp [Entries.keys]) (by simp [ht])

end ContentSchema
