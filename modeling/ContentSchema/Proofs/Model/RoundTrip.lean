import ContentSchema.Model.Reader
import ContentSchema.Proofs.Json.Reading
import ContentSchema.Proofs.Model.Written

/-! # Content models are read back

A content model that is written and read back is the same model, as long as the room for nested
containers lasts: what is left out is what a record starts out with, and a constraint is told from
a list of constraints by its form.
-/

namespace ContentSchema

open Json

namespace Json

theorem Reader.optional_ofValue {α : Type} {read : Reader α} {v : Value} {a : α} (hn : v ≠ .null)
    (h : read (Tree.ofValue v) = .ok a) : optional read (Tree.ofValue v) = .ok (some a) := by
  cases v with
  | null => exact absurd rfl hn
  | _ => exact congrArg (Except.map some) h

namespace Record

variable {α : Type} {record : Record α}

theorem read_ofValue {members : List (String × Value)} {origin : Origin} {room : Nat}
    (hd : (Tree.ofValue (.object members)).depth ≤ room) :
    record.read origin room (Tree.ofValue (.object members)) =
      record.readMembers [] record.blank (Tree.ofMembers members) := by
  obtain ⟨hr, -⟩ := Tree.depth_object_le_iff.1 hd
  rw [Tree.ofValue, read, if_neg (Nat.ne_of_gt hr)]

theorem readMembers_nil {seen : List String} {a : α}
    (h : ∀ slot ∈ record.slots, slot.mandatory = true → slot.key ∈ seen) :
    record.readMembers seen a [] = .ok a := by
  have hf : record.slots.find? (fun slot => slot.mandatory && !seen.contains slot.key) = none := by
    rw [List.find?_eq_none]
    intro slot hs
    simpa using h slot hs
  rw [readMembers, hf]

theorem readMembers_optional_value {key : String} {value : Option Value} {slot : Slot α}
    {seen : List String} {a b : α} {rest : List (Tree × Tree)}
    (hf : record.slots.find? (·.answers key) = some slot) (hs : slot.key ∉ seen)
    (hn : value = none → a = b)
    (hb : ∀ v, value = some v → slot.set a (Tree.ofValue v) = .ok b) :
    record.readMembers seen a (Tree.ofMembers (Value.optional key value) ++ rest) =
      record.readMembers ((value.map fun _ => slot.key).toList ++ seen) b rest := by
  cases value with
  | none =>
    rw [hn rfl]
    rfl
  | some v => exact readMembers_slot hf hs (hb v rfl)

theorem readMembers_text {key : String} {value : Option String} {slot : Slot α}
    {put : α → Option String → α} {seen : List String} {a b : α} {rest : List (Tree × Tree)}
    (hf : record.slots.find? (·.answers key) = some slot) (hs : slot.key ∉ seen)
    (hp : slot.set = Slot.setWith (Reader.optional Reader.text) put) (ha : put a none = a)
    (hb : put a value = b) :
    record.readMembers seen a
        (Tree.ofMembers (Value.optional key (value.map .str)) ++ rest) =
      record.readMembers ((value.map fun _ => slot.key).toList ++ seen) b rest := by
  apply readMembers_optional hf hs
  · rintro rfl
    rw [← hb, ha]
  · rintro s rfl
    rw [hp, ← hb]
    rfl

end Record

end Json

theorem OneOrMany.toValue_ne_null (c : OneOrMany) : c.toValue ≠ .null := by
  cases c <;> rintro ⟨⟩

theorem OneOrMany.read_toValue (c : OneOrMany) {room : Nat}
    (hd : (Tree.ofValue c.toValue).depth ≤ room) : read room (Tree.ofValue c.toValue) = .ok c := by
  rw [read, Tree.value?_ofValue c.plain_toValue hd]
  cases c with
  | one value => rfl
  | many values =>
    have ht : (values.map Value.str).mapM Value.text? = some values :=
      Reader.mapM_map_eq_pure fun _ _ => rfl
    simp only [toValue, ht]

theorem Validation.read_toValue (v : Validation) {room : Nat}
    (hd : (Tree.ofValue v.toValue).depth ≤ room) : read room (Tree.ofValue v.toValue) = .ok v := by
  obtain ⟨content, media⟩ := v
  obtain ⟨-, hm⟩ := Tree.depth_object_le_iff.1 hd
  have hc : ∀ c, content = some c ∨ media = some c →
      Reader.optional (OneOrMany.read (room - 1)) (Tree.ofValue c.toValue) = .ok (some c) := by
    intro c hc
    refine Reader.optional_ofValue c.toValue_ne_null (c.read_toValue ?_)
    rcases hc with rfl | rfl
    · exact hm ("linkContentType", c.toValue) (by simp [Value.optional])
    · exact hm ("linkMimetypeGroup", c.toValue) (by simp [Value.optional])
  rw [read, toValue, Record.read_ofValue hd, Tree.ofMembers_append,
    ← List.append_nil (Tree.ofMembers (Value.optional "linkMimetypeGroup" _)),
    Record.readMembers_optional (b := ⟨content, none⟩) rfl (by simp) (by rintro rfl; rfl)
      fun c h => Slot.set_defaulted (hc c (.inl h)) (by rw [h]; rfl),
    Record.readMembers_optional (b := ⟨content, media⟩) rfl (by simp) (by rintro rfl; rfl)
      fun c h => Slot.set_defaulted (hc c (.inr h)) (by rw [h])]
  exact Record.readMembers_nil (by simp [record, Slot.defaulted, Slot.needed])

namespace Descriptor

theorem read_validationsMember (d : Descriptor) {room : Nat}
    (hd : (Tree.ofValue d.validationsMember.2).depth ≤ room) :
    validationsReader room (Tree.ofValue d.validationsMember.2) = .ok d.validations :=
  Reader.list_ofValue hd fun v _ hv => v.read_toValue hv

theorem chainValue?_eq_none {chain : List Descriptor} (h : chainValue? chain = none) :
    chain = [] := by
  cases chain with
  | nil => rfl
  | cons d inner => cases h

theorem chainValue?_ne_null {chain : List Descriptor} {v : Value} (h : chainValue? chain = some v) :
    v ≠ .null := by
  rintro rfl
  cases chain <;> cases h

/-- The items of items are read with the room that is left inside. -/
theorem read_chainValue? {chain : List Descriptor} {v : Value} (h : chainValue? chain = some v)
    {room : Nat} (hd : (Tree.ofValue v).depth ≤ room) :
    readChain room (Tree.ofValue v) = .ok chain := by
  induction chain generalizing v room with
  | nil => cases h
  | cons d inner ih =>
    obtain rfl := Option.some.inj h
    obtain ⟨hr, hm⟩ := Tree.depth_object_le_iff.1 hd
    obtain ⟨room, rfl⟩ := Nat.exists_eq_add_one.2 hr
    have hv : validationsReader room (Tree.ofValue d.validationsMember.2) = .ok d.validations :=
      d.read_validationsMember (hm _ (by simp))
    have hi : ∀ v, chainValue? inner = some v →
        Reader.optional (readChain room) (Tree.ofValue v) = .ok (some inner) := by
      intro v hc
      refine Reader.optional_ofValue (chainValue?_ne_null hc) (ih hc (hm ("items", v) ?_))
      simp [hc, Value.optional]
    have hrecord : (chainRecord (room + 1) (readChain room)).read .text (room + 1)
        (Tree.ofValue (.object (d.kindMembers ++ Value.optional "items" (chainValue? inner) ++
          [d.validationsMember]))) = .ok (d, inner) := by
      rw [Record.read_ofValue hd, kindMembers, List.cons_append, List.cons_append, Tree.ofMembers,
        Tree.ofMembers_append, Tree.ofMembers_append, List.append_assoc,
        Record.readMembers_slot (b := (⟨d.kind, none, []⟩, [])) rfl (by simp) rfl,
        Record.readMembers_text (b := (⟨d.kind, d.linkType, []⟩, [])) rfl (by simp) rfl rfl rfl,
        Record.readMembers_optional_value (b := (⟨d.kind, d.linkType, []⟩, inner)) rfl (by simp)
          (fun h => by rw [chainValue?_eq_none h]) fun v h => Slot.set_defaulted (hi v h) rfl,
        Tree.ofMembers,
        Record.readMembers_slot (b := (d, inner)) rfl (by simp) (Slot.set_defaulted hv rfl)]
      exact Record.readMembers_nil (by simp [chainRecord, Slot.defaulted, Slot.needed])
    rw [readChain, hrecord]
    rfl

end Descriptor

theorem Field.read_toValue (f : Field) {room : Nat} (hd : (Tree.ofValue f.toValue).depth ≤ room) :
    read room (Tree.ofValue f.toValue) = .ok f := by
  obtain ⟨id, name, d, items, required, localized⟩ := f
  obtain ⟨-, hm⟩ := Tree.depth_object_le_iff.1 hd
  have hv : Descriptor.validationsReader (room - 1) (Tree.ofValue d.validationsMember.2) =
      .ok d.validations := d.read_validationsMember (hm _ (by simp))
  have hi : ∀ v, Descriptor.chainValue? items = some v →
      Reader.optional (Descriptor.readChain (room - 1)) (Tree.ofValue v) = .ok (some items) := by
    intro v hc
    refine Reader.optional_ofValue (Descriptor.chainValue?_ne_null hc)
      (Descriptor.read_chainValue? hc (hm ("items", v) ?_))
    simp [hc, Value.optional]
  rw [read, toValue, Record.read_ofValue hd, Descriptor.kindMembers]
  simp only [List.cons_append, List.nil_append, Tree.ofMembers, Tree.ofMembers_append,
    List.append_assoc]
  rw [Record.readMembers_slot (b := ⟨id, "", .blank, [], false, false⟩) rfl (by simp) rfl,
    Record.readMembers_slot (b := ⟨id, name, .blank, [], false, false⟩) rfl (by simp) rfl,
    Record.readMembers_slot (b := ⟨id, name, ⟨d.kind, none, []⟩, [], false, false⟩) rfl (by simp)
      rfl,
    Record.readMembers_text (b := ⟨id, name, ⟨d.kind, d.linkType, []⟩, [], false, false⟩) rfl
      (by simp) rfl rfl rfl,
    Record.readMembers_optional_value
      (b := ⟨id, name, ⟨d.kind, d.linkType, []⟩, items, false, false⟩) rfl (by simp)
      (fun h => by rw [Descriptor.chainValue?_eq_none h])
      fun v h => Slot.set_defaulted (hi v h) rfl,
    Record.readMembers_slot (b := ⟨id, name, d, items, false, false⟩) rfl (by simp)
      (Slot.set_defaulted hv rfl),
    Record.readMembers_slot (b := ⟨id, name, d, items, required, false⟩) rfl (by simp) rfl,
    Record.readMembers_slot (b := ⟨id, name, d, items, required, localized⟩) rfl (by simp) rfl]
  exact Record.readMembers_nil (by simp [record, Slot.defaulted, Slot.needed])

namespace ContentType

theorem read_sys (id : String) {room : Nat}
    (hd : (Tree.ofValue (.object [("id", .str id)])).depth ≤ room) :
    sysRecord.read .text room (Tree.ofValue (.object [("id", .str id)])) = .ok id := by
  rw [Record.read_ofValue hd, Tree.ofMembers, Record.readMembers_slot rfl (by simp) rfl]
  rfl

theorem read_toValue (ct : ContentType) {room : Nat}
    (hd : (Tree.ofValue ct.toValue).depth ≤ room) :
    read room (Tree.ofValue ct.toValue) = .ok ct := by
  obtain ⟨id, name, description, displayField, fields⟩ := ct
  obtain ⟨-, hm⟩ := Tree.depth_object_le_iff.1 hd
  have hs := read_sys id (hm ("sys", .object [("id", .str id)]) (by simp))
  have hf : Reader.list (room - 1) (Field.read (room - 2))
      (Tree.ofValue (.list (fields.map (·.toValue)))) = .ok fields :=
    Reader.list_ofValue (hm ("fields", .list (fields.map (·.toValue))) (by simp))
      fun f _ hd => f.read_toValue hd
  rw [read, toValue, Record.read_ofValue hd]
  simp only [List.cons_append, List.nil_append, Tree.ofMembers, Tree.ofMembers_append,
    List.append_assoc]
  rw [Record.readMembers_slot (b := ⟨id, "", none, none, []⟩) rfl (by simp)
      (Slot.set_needed hs rfl),
    Record.readMembers_slot (b := ⟨id, name, none, none, []⟩) rfl (by simp) rfl,
    Record.readMembers_text (b := ⟨id, name, description, none, []⟩) rfl (by simp) rfl rfl rfl,
    Record.readMembers_text (b := ⟨id, name, description, displayField, []⟩) rfl (by simp) rfl rfl
      rfl,
    Record.readMembers_slot (b := ⟨id, name, description, displayField, fields⟩) rfl (by simp)
      (Slot.set_defaulted hf rfl)]
  exact Record.readMembers_nil (by simp [record, Slot.defaulted, Slot.needed])

end ContentType

namespace ContentModel

theorem read_toValue (model : ContentModel) {room : Nat}
    (hd : (Tree.ofValue model.toValue).depth ≤ room) :
    read room (Tree.ofValue model.toValue) = .ok model := by
  obtain ⟨types⟩ := model
  obtain ⟨-, hm⟩ := Tree.depth_object_le_iff.1 hd
  have ht : Reader.list (room - 1) (ContentType.read (room - 2))
      (Tree.ofValue (.list (types.map (·.toValue)))) = .ok types :=
    Reader.list_ofValue (hm ("contentTypes", .list (types.map (·.toValue))) (by simp))
      fun ct _ hd => ct.read_toValue hd
  rw [read, toValue, Record.read_ofValue hd, Tree.ofMembers,
    Record.readMembers_slot rfl (by simp) (congrArg (Except.map _) ht)]
  rfl

end ContentModel

/-- A content model whose written form nests no deeper than what is read is read back from its text,
laid out or not. -/
theorem model_round_trip (model : ContentModel)
    (hd : (Tree.ofValue model.toValue).depth ≤ maxDepth) :
    ContentModel.ofText model.toValue.compact = .ok model ∧
      ContentModel.ofText model.toValue.pretty = .ok model := by
  have hp := model.plain_toValue
  have hr : Document.read ⟨Tree.ofValue model.toValue, false⟩ (ContentModel.read maxDepth) =
      .ok model := by
    rw [Document.read, model.read_toValue hd]
    rfl
  constructor
  · rw [ContentModel.ofText, Document.ofText_compact hp, hr]
  · rw [ContentModel.ofText, Document.ofText_pretty hp, hr]

/-- Content types with lists in lists, both forms of a constraint and texts that are escaped. -/
def gallery : ContentModel :=
  ⟨[⟨"a \"b\" \n", "Größe", some "", none,
      [⟨"rows", "", ⟨"Array", none, [⟨none, none⟩]⟩,
        [⟨"Array", none, []⟩, ⟨"Link", some "Asset", [⟨none, some (.one "image")⟩]⟩], true, false⟩,
      ⟨"next", "\\u0041", ⟨"Link", some "Entry",
        [⟨some (.many []), none⟩, ⟨some (.many ["a", "a"]), some (.one "")⟩]⟩, [], false, true⟩]⟩,
    ⟨"", "", none, some "rows", []⟩]⟩

theorem model_round_trip_gallery :
    (Tree.ofValue gallery.toValue).depth ≤ maxDepth ∧
      ContentModel.ofText gallery.toValue.compact = .ok gallery := by
  have hd : (Tree.ofValue gallery.toValue).depth ≤ maxDepth := by decide +kernel
  exact ⟨hd, (model_round_trip gallery hd).1⟩

end ContentSchema
